import KalshiAgent.Lib.Execution
import KalshiAgent.Positions.History
import KalshiAgent.Safety.Reconciliation
import KalshiAgent.Safety.RiskMonitor

/-! The cost basis behind the exposure caps: whether every contract held has an average price,
over all runs of booked fills and reconciliations. -/

namespace KalshiAgent
open Execution

inductive BookStep
  | fill (a : Arrival)
  | reconcile (source : String) (remote : List KalshiPosition)

/-- A fill of at least one contract at a price strictly inside (0, 1), in four decimals. -/
def WellPriced (fill : KalshiFill) : Prop :=
  1 ≤ fill.count ∧ 0 < fill.price ∧ fill.price < 1 ∧ FourPlaces fill.price

instance (fill : KalshiFill) : Decidable (WellPriced fill) :=
  inferInstanceAs (Decidable (_ ∧ _ ∧ _ ∧ _))

def bookStep (rate : ℚ) (db : Db) : BookStep → Option Db
  | .fill a =>
    if WellPriced a.fill then
      match applyFill rate db a with
      | .ok (db', _) => some db'
      | .error _ => none
    else none
  | .reconcile source remote =>
    match reconcileInner source db (.ok remote) with
    | .ok (db', .ok _) => some db'
    | _ => none

def Position.Based (p : Position) : Prop := 0 < p.count → 0 < p.avgPriceDollars.toDecimal

/-- Every contract held has a cost basis and counts in both exposure sums: its market shows an
exposure, and the total falls when the position is closed. -/
def SeenByCaps (db : Db) : Prop :=
  ∀ p ∈ db.positions.rows, 0 < p.count →
    0 < p.avgPriceDollars.toDecimal ∧ 0 < currentPositionExposureDollars db p.marketTicker ∧
      currentTotalExposureDollars { db with positions := db.positions.put { p with count := 0 } } <
        currentTotalExposureDollars db

theorem seenByCaps_iff (db : Db) : SeenByCaps db ↔ ∀ p ∈ db.positions.rows, p.Based := by
  constructor
  · intro h p hp hcount
    exact (h p hp hcount).1
  · intro h p hp hcount
    have havg := h p hp hcount
    have hfind := KeyedTable.find_of_mem hp
    have hexposure : 0 < p.exposure := mul_pos havg (by exact_mod_cast hcount)
    refine ⟨havg, ?_, ?_⟩
    · simpa [currentPositionExposureDollars, hfind] using hexposure
    · have hzero : ({ p with count := 0 } : Position).exposure = 0 := by simp [Position.exposure]
      unfold currentTotalExposureDollars
      dsimp only
      rw [KeyedTable.sum_put, hzero, hfind]
      simpa using hexposure

/-- The condition on a step: where a reconciliation reports a position, the local row it is
written over has a cost basis already. -/
def BasisKnown (db : Db) : BookStep → Prop
  | .fill _ => True
  | .reconcile _ remote =>
    ∀ rpos ∈ (KeyedTable.ofList remote : KeyedTable KalshiPosition.ticker).rows, rpos.position ≠ 0 →
      ∃ l, db.positions.find rpos.ticker = some l ∧ 0 < l.avgPriceDollars.toDecimal

theorem Moves.based {pos moved : Position} {fill : KalshiFill} {price gross : ℚ}
    (h : Moves pos fill price moved gross) (hcount : 0 ≤ pos.count) (hpos : pos.Based)
    (hn : 1 ≤ fill.count) (hprice : 0 < price) (htick : FourPlaces price) : moved.Based := by
  have hwritten : 0 < (priceDecimalToStr price).toDecimal := by
    rwa [toDecimal_priceDecimalToStr htick]
  intro hmoved
  cases h with
  | opens haction hflat => exact hwritten
  | topsUp haction hheld hside hsum =>
    have hc : 0 < pos.count := by omega
    have hmean := rounded_mean_between pos.avgPriceDollars.fourPlaces_toDecimal htick
      (c := pos.count) (n := fill.count) (by exact_mod_cast hc) (by exact_mod_cast hn)
    push_cast
    exact (lt_min (hpos hc) hprice).trans_le hmean.1
  | pairsSome haction hheld hside hless => exact hpos (by omega)
  | pairsAll haction hheld hside hall => exact absurd hmoved (lt_irrefl 0)
  | flips haction hheld hside hmore => exact hwritten
  | sellsNone haction hnone => exact hpos hmoved
  | sellsSome haction hheld hside hless => exact hpos (by omega)
  | sellsAll haction hheld hside hmore => exact absurd hmoved (lt_irrefl 0)

theorem positionFor_based {db : Db} (h : ∀ p ∈ db.positions.rows, p.Based) (fill : KalshiFill) :
    (db.positionFor fill).Based := by
  unfold Db.positionFor
  cases hfind : db.positions.find fill.ticker with
  | none => exact fun hcount => absurd hcount (lt_irrefl 0)
  | some pos => exact h pos (KeyedTable.mem_of_find hfind)

theorem applyFill_based {rate δ : ℚ} {db db' : Db} {a : Arrival}
    (hcounts : ∀ p ∈ db.positions.rows, 0 ≤ p.count) (hbased : ∀ p ∈ db.positions.rows, p.Based)
    (hfill : WellPriced a.fill) (h : applyFill rate db a = .ok (db', δ)) :
    ∀ p ∈ db'.positions.rows, p.Based := by
  rcases applyFill_cases h with ⟨_, rfl, _⟩ | ⟨_, price, moved, gross, hprice, htrade, _, rfl⟩
  · exact hbased
  · intro p hp
    obtain ⟨hn, hpos, _, htick⟩ := hfill
    rw [KalshiFill.price, hprice] at hpos htick
    rcases KeyedTable.mem_put.mp hp with rfl | ⟨hold, _⟩
    · exact (trade_moves htrade).based (positionFor_count_nonneg hcounts a.fill)
        (positionFor_based hbased a.fill) hn hpos htick
    · exact hbased p hold

/-- A reconciliation leaves every held position with a cost basis exactly when each position it
reports had one. -/
theorem reconcile_based_iff {source : String} {db db' : Db} {remote : List KalshiPosition}
    {ds : List Discrepancy} (h : reconcileInner source db (.ok remote) = .ok (db', .ok ds)) :
    (∀ p ∈ db'.positions.rows, p.Based) ↔ BasisKnown db (.reconcile source remote) := by
  constructor
  · intro hbased rpos hrpos hne
    obtain ⟨p, hrow, _, hcount, havg⟩ := reconciledRow_some (db.positions.find rpos.ticker) rpos
    have hfind := reconcile_find h rpos.ticker
    rw [KeyedTable.find_of_mem hrpos, hrow] at hfind
    have hpos := hbased p (KeyedTable.mem_of_find hfind) (hcount ▸ abs_pos.mpr hne)
    cases hl : db.positions.find rpos.ticker with
    | none => simp [havg, hl] at hpos
    | some l => exact ⟨l, rfl, by simpa [havg, hl] using hpos⟩
  · intro hknown p hp hheld
    have hfind := KeyedTable.find_of_mem hp
    rw [reconcile_find h] at hfind
    cases hr : (KeyedTable.ofList remote : KeyedTable KalshiPosition.ticker).find p.marketTicker with
    | none =>
      -- a position that is not reported is closed
      rw [hr] at hfind
      obtain ⟨l, _, rfl⟩ := Option.map_eq_some_iff.mp hfind
      exact absurd hheld (lt_irrefl 0)
    | some rpos =>
      obtain ⟨q, hrow, _, hcount, havg⟩ := reconciledRow_some (db.positions.find p.marketTicker) rpos
      rw [hr, hrow] at hfind
      cases hfind
      rw [hcount] at hheld
      obtain ⟨l, hl, hlavg⟩ := hknown rpos (KeyedTable.mem_of_find hr) (abs_pos.mp hheld)
      rw [KeyedTable.find_key hr] at hl
      simpa [havg, hl] using hlavg

section Runs
variable {rate : ℚ} {db db' : Db} {step : BookStep}

theorem bookStep_cases (h : bookStep rate db step = some db') :
    (∃ a δ, step = .fill a ∧ WellPriced a.fill ∧ applyFill rate db a = .ok (db', δ)) ∨
      ∃ source remote ds, step = .reconcile source remote ∧
        reconcileInner source db (.ok remote) = .ok (db', .ok ds) := by
  cases step with
  | fill a =>
    simp only [bookStep] at h
    split_ifs at h with hfill
    cases happ : applyFill rate db a with
    | error e => simp [happ] at h
    | ok r =>
      obtain ⟨next, δ⟩ := r
      simp only [happ, Option.some.injEq] at h
      exact .inl ⟨a, δ, rfl, hfill, h ▸ happ⟩
  | reconcile source remote =>
    simp only [bookStep] at h
    split at h
    · next next ds hrec => exact .inr ⟨source, remote, ds, rfl, Option.some.inj h ▸ hrec⟩
    · cases h

theorem bookStep_counts (hcounts : ∀ p ∈ db.positions.rows, 0 ≤ p.count)
    (h : bookStep rate db step = some db') : ∀ p ∈ db'.positions.rows, 0 ≤ p.count := by
  rcases bookStep_cases h with ⟨a, δ, rfl, hfill, happ⟩ | ⟨source, remote, ds, rfl, hrec⟩
  · exact applyFill_count_nonneg hcounts (by have := hfill.1; omega) happ
  · exact reconcile_count_nonneg hrec

theorem bookStep_seen_iff (hcounts : ∀ p ∈ db.positions.rows, 0 ≤ p.count) (hseen : SeenByCaps db)
    (h : bookStep rate db step = some db') : SeenByCaps db' ↔ BasisKnown db step := by
  rw [seenByCaps_iff] at hseen ⊢
  rcases bookStep_cases h with ⟨a, δ, rfl, hfill, happ⟩ | ⟨source, remote, ds, rfl, hrec⟩
  · exact iff_of_true (applyFill_based hcounts hseen hfill happ) trivial
  · exact reconcile_based_iff hrec

end Runs

/-- A run keeps every contract held in sight of the caps exactly when no reconciliation of it
reports a position whose local row has no cost basis. -/
theorem seenByCaps_iff_basisKnown (rate : ℚ) (steps : List BookStep) :
    AllStates (bookStep rate) SeenByCaps .empty steps ↔
      AllSteps (bookStep rate) BasisKnown .empty steps := by
  refine allStates_iff_allSteps (I := fun db => ∀ p ∈ db.positions.rows, 0 ≤ p.count)
    (fun db step db' hI h => bookStep_counts hI h)
    (fun db step db' hI hseen h => bookStep_seen_iff hI hseen h) ?_ ?_
  · intro p hp
    exact absurd hp List.not_mem_nil
  · intro p hp
    exact absurd hp List.not_mem_nil

/-- Ten contracts that only the exchange knows of are mirrored at an average of zero. -/
theorem not_seenByCaps_mirrored :
    ¬ AllStates (bookStep (7 / 100)) SeenByCaps .empty [.reconcile "startup" [⟨"FOO", 10, none⟩]] := by
  intro h
  have hlast := (h.2 _ rfl).head
  have hrow := hlast ⟨"FOO", .yes, 10, .zero, 0⟩ (by decide +kernel) (by decide)
  exact absurd hrow.1 (by decide +kernel)

end KalshiAgent
