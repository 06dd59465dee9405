import KalshiAgent.Positions.ApplyFill
import Mathlib.Tactic.Linarith

/-! Histories of fills. The signed position (YES contracts minus NO contracts) is the abstract
view of a position row: booking a trade refines plain integer arithmetic on it. A history of
one ticker reduces to its position row, so a property of histories is an invariant of one trade. -/

namespace KalshiAgent

/-- What a trade does to a signed position. A sale closes at most what its side holds. -/
def signedTrade (q : ℤ) (fill : KalshiFill) : ℤ :=
  match fill.action with
  | .buy => q + fill.side.sign * fill.count
  | .sell =>
    let held := fill.side.sign * q
    if 0 < held then fill.side.sign * max (held - fill.count) 0 else q

theorem signedTrade_buy {q : ℤ} {fill : KalshiFill} (h : fill.action = .buy) :
    signedTrade q fill = q + fill.side.sign * fill.count := by
  simp [signedTrade, h]

theorem sign_mul_signed_of_eq {pos : Position} {side : Side} (h : pos.side = side) :
    side.sign * pos.signed = pos.count := by
  rw [Position.signed, h, ← mul_assoc, Side.sign_mul_self, one_mul]

theorem sign_mul_signed_of_ne {pos : Position} {side : Side} (h : pos.side ≠ side) :
    side.sign * pos.signed = -pos.count := by
  rw [Position.signed, Side.sign_eq_neg h, neg_mul, ← mul_assoc, Side.sign_mul_self, one_mul]

theorem signed_eq_zero_iff {pos : Position} : pos.signed = 0 ↔ pos.count = 0 := by
  cases hs : pos.side <;> simp [Position.signed, Side.sign, hs]

theorem Moves.signed {pos moved : Position} {fill : KalshiFill} {price gross : ℚ}
    (h : Moves pos fill price moved gross) (hpos : 0 ≤ pos.count) :
    moved.signed = signedTrade pos.signed fill := by
  cases h with
  | opens haction hflat =>
    rw [signedTrade_buy haction, signed_eq_zero_iff.mpr hflat, zero_add, Position.signed]
  | topsUp haction hheld hside hsum =>
    rw [signedTrade_buy haction]
    simp only [Position.signed, ← hside]
    ring
  | pairsSome haction hheld hside hless =>
    rw [signedTrade_buy haction]
    simp only [Position.signed, Side.sign_eq_neg hside]
    ring
  | pairsAll haction hheld hside hall =>
    rw [signedTrade_buy haction]
    simp only [Position.signed, Side.sign_eq_neg hside, hall]
    ring
  | flips haction hheld hside hmore =>
    rw [signedTrade_buy haction]
    simp only [Position.signed, Side.sign_eq_neg hside]
    ring
  | sellsNone haction hnone =>
    have hheld : ¬ 0 < fill.side.sign * pos.signed := by
      rcases hnone with hside | hflat
      · rw [sign_mul_signed_of_ne hside]
        omega
      · simp [signed_eq_zero_iff.mpr hflat]
    simp only [signedTrade, haction, if_neg hheld]
  | sellsSome haction hheld hside hless =>
    have hpos' : 0 < pos.count := by omega
    simp only [signedTrade, haction, sign_mul_signed_of_eq hside, if_pos hpos']
    rw [max_eq_left (by omega), Position.signed, hside]
  | sellsAll haction hheld hside hmore =>
    have hpos' : 0 < pos.count := by omega
    simp only [signedTrade, haction, sign_mul_signed_of_eq hside, if_pos hpos']
    rw [max_eq_right (by omega), mul_zero]
    exact mul_zero _

def Db.rowFor (db : Db) (t : Ticker) (side : Side) : Position :=
  (db.positions.find t).getD ⟨t, side, 0, .zero, 0⟩

theorem positionFor_eq_rowFor (db : Db) (fill : KalshiFill) :
    db.positionFor fill = db.rowFor fill.ticker fill.side := rfl

theorem signed_eq_rowFor (db : Db) (t : Ticker) (side : Side) :
    db.signed t = (db.rowFor t side).signed := by
  unfold Db.signed Db.rowFor
  cases db.positions.find t with
  | none => simp [Position.signed]
  | some pos => rfl

theorem rowFor_recordFill {db : Db} {row : Fill} {pos : Position} (t : Ticker) (side : Side) :
    (db.recordFill row pos).rowFor t side =
      if pos.marketTicker = t then pos else db.rowFor t side := by
  unfold Db.rowFor Db.recordFill
  dsimp only
  rw [KeyedTable.find_put]
  split_ifs <;> rfl

def KalshiFill.price (fill : KalshiFill) : ℚ :=
  match fillPrice fill with
  | .ok price => price
  | .error _ => 0

/-- Neither of two arrivals is taken for the other, whichever is booked first. -/
def DistinctIdentity (a b : Arrival) : Prop :=
  a.storedIdentity ≠ b.lookupIdentity ∧ b.storedIdentity ≠ a.lookupIdentity

/-- A price of a contract: between 0 and 1, with at most four decimals. -/
def OnTick (price : ℚ) : Prop := 0 ≤ price ∧ price ≤ 1 ∧ FourPlaces price

instance (price : ℚ) : Decidable (OnTick price) := inferInstanceAs (Decidable (_ ∧ _ ∧ _))

instance (a b : Arrival) : Decidable (DistinctIdentity a b) := inferInstanceAs (Decidable (_ ∧ _))

/-- Fills of one ticker, all readable and at least one contract each, no two of them
confused with each other or with a stored row. -/
structure History (db : Db) (t : Ticker) (ds : List Arrival) : Prop where
  onTicker : ∀ a ∈ ds, a.fill.ticker = t
  unseen : ∀ a ∈ ds, db.hasFill a.lookupIdentity = false
  distinct : ds.Pairwise DistinctIdentity
  count_pos : ∀ a ∈ ds, 1 ≤ a.fill.count
  priced : ∀ a ∈ ds, fillPrice a.fill = .ok a.fill.price ∧ OnTick a.fill.price

def applyFills (rate : ℚ) (db : Db) : List Arrival → Except FillError Db
  | [] => .ok db
  | a :: as =>
    match applyFill rate db a with
    | .error e => .error e
    | .ok (db', _) => applyFills rate db' as

theorem applyFills_cons_ok {rate : ℚ} {db db' : Db} {a : Arrival} {as : List Arrival} :
    applyFills rate db (a :: as) = .ok db' ↔
      ∃ db₁ δ, applyFill rate db a = .ok (db₁, δ) ∧ applyFills rate db₁ as = .ok db' := by
  rw [applyFills]
  cases applyFill rate db a with
  | error e => simp
  | ok r => exact ⟨fun h => ⟨r.1, r.2, rfl, h⟩, fun ⟨_, _, hr, h⟩ => by cases hr; exact h⟩

theorem History.tail {db : Db} {t : Ticker} {a : Arrival} {ds : List Arrival} {price fee : ℚ}
    {pos : Position} (h : History db t (a :: ds)) :
    History (db.recordFill (a.row price fee) pos) t ds where
  onTicker b hb := h.onTicker b (List.mem_cons_of_mem _ hb)
  unseen b hb := by
    rw [← Bool.not_eq_true, Db.hasFill_recordFill, Arrival.row_identity, not_or]
    have hne : DistinctIdentity a b := List.rel_of_pairwise_cons h.distinct hb
    exact ⟨Bool.eq_false_iff.mp (h.unseen b (List.mem_cons_of_mem _ hb)), hne.1⟩
  distinct := h.distinct.of_cons
  count_pos b hb := h.count_pos b (List.mem_cons_of_mem _ hb)
  priced b hb := h.priced b (List.mem_cons_of_mem _ hb)

theorem History.perm {db : Db} {t : Ticker} {ds es : List Arrival} (h : History db t ds)
    (hp : es.Perm ds) : History db t es where
  onTicker a ha := h.onTicker a (hp.mem_iff.mp ha)
  unseen a ha := h.unseen a (hp.mem_iff.mp ha)
  distinct := hp.symm.pairwise h.distinct (fun h => ⟨h.2, h.1⟩)
  count_pos a ha := h.count_pos a (hp.mem_iff.mp ha)
  priced a ha := h.priced a (hp.mem_iff.mp ha)

/-- The fills of a history all meet a guard that may depend on the ghost state so far. -/
def Admits {γ : Type*} (record : γ → KalshiFill → γ) (guard : γ → KalshiFill → Prop) (g : γ) :
    List Arrival → Prop
  | [] => True
  | a :: as => guard g a.fill ∧ Admits record guard (record g a.fill) as

def ghost {γ : Type*} (record : γ → KalshiFill → γ) (g : γ) (ds : List Arrival) : γ :=
  ds.foldl (fun g a => record g a.fill) g

theorem History.books (rate : ℚ) {db : Db} {t : Ticker} {a : Arrival} {ds : List Arrival}
    (hh : History db t (a :: ds)) (hcount : 0 ≤ (db.rowFor t a.fill.side).count) :
    ∃ moved gross, Moves (db.rowFor t a.fill.side) a.fill a.fill.price moved gross ∧
      (∀ δ, (moved.accrue δ).marketTicker = t) ∧
      applyFill rate db a = .ok
        (db.recordFill
            (a.row a.fill.price (totalFeeDollars a.fill.count a.fill.price a.fill.isTaker rate))
            (moved.accrue
              (gross - totalFeeDollars a.fill.count a.fill.price a.fill.isTaker rate)),
          gross - totalFeeDollars a.fill.count a.fill.price a.fill.isTaker rate) := by
  have hmem : a ∈ a :: ds := List.mem_cons_self
  have hrow : db.positionFor a.fill = db.rowFor t a.fill.side := by
    rw [positionFor_eq_rowFor, hh.onTicker a hmem]
  obtain ⟨moved, gross, htrade⟩ := trade_defined hcount (hh.count_pos a hmem) a.fill.price
  rw [← hrow] at htrade ⊢
  have hmoves := trade_moves htrade
  refine ⟨moved, gross, hmoves, fun δ => ?_,
    applyFill_of_new rate (hh.unseen a hmem) (hh.priced a hmem).1 htrade⟩
  exact hmoves.marketTicker.trans ((positionFor_marketTicker db a.fill).trans (hh.onTicker a hmem))

/-- The induction over a history: a relation between the position row and a ghost state
recorded from the fills, kept by every move, holds at the end, and nothing raises. -/
theorem applyFills_rule {γ : Type*} {record : γ → KalshiFill → γ} {guard : γ → KalshiFill → Prop}
    {I : Position → γ → Prop} (rate : ℚ) (hcount : ∀ pos g, I pos g → 0 ≤ pos.count)
    (hstep : ∀ pos g fill moved gross, I pos g → guard g fill → 1 ≤ fill.count →
      OnTick fill.price → Moves pos fill fill.price moved gross →
      I (moved.accrue (gross - totalFeeDollars fill.count fill.price fill.isTaker rate))
        (record g fill))
    {db : Db} {t : Ticker} {ds : List Arrival} {g : γ} (hh : History db t ds)
    (hg : Admits record guard g ds) (hI : ∀ side, I (db.rowFor t side) g) :
    ∃ db', applyFills rate db ds = .ok db' ∧ ∀ side, I (db'.rowFor t side) (ghost record g ds) := by
  induction ds generalizing db g with
  | nil => exact ⟨db, rfl, hI⟩
  | cons a ds ih =>
    have hmem : a ∈ a :: ds := List.mem_cons_self
    have hpos := hI a.fill.side
    obtain ⟨moved, gross, hmoves, hticker, happ⟩ := hh.books rate (hcount _ _ hpos)
    have hnext :=
      hstep _ _ _ _ _ hpos hg.1 (hh.count_pos a hmem) (hh.priced a hmem).2 hmoves
    obtain ⟨db', hrun, hend⟩ := ih hh.tail hg.2 (fun side => by
      rw [rowFor_recordFill, if_pos (hticker _)]
      exact hnext)
    exact ⟨db', by simpa [applyFills, happ] using hrun, hend⟩

end KalshiAgent
