import KalshiAgent.Positions.Exposure
import Mathlib.Algebra.Order.BigOperators.Group.List
import Mathlib.Tactic.LinearCombination

/-! The fills of one buy order, booked one by one with what each call returns. The order comes
in any number of pieces: fees add up over the pieces, pairing keeps the average, and opening
moves it by one rounding for each piece. -/

namespace KalshiAgent

def filled (ds : List Arrival) : ℤ := (ds.map (fun a => a.fill.count)).sum

@[simp] theorem filled_nil : filled [] = 0 := rfl

@[simp] theorem filled_cons (a : Arrival) (ds : List Arrival) :
    filled (a :: ds) = a.fill.count + filled ds := List.sum_cons

/-- Fills of one buy order at its limit price, none of them stored before. -/
structure OrderFills (db : Db) (t : Ticker) (side : Side) (price : ℚ) (ds : List Arrival) : Prop where
  history : History db t ds
  buys : ∀ a ∈ ds, a.fill.action = .buy
  onSide : ∀ a ∈ ds, a.fill.side = side
  atPrice : ∀ a ∈ ds, a.fill.price = price

/-- A run of `apply_fill`, with the realized deltas it returns. -/
def bookFills (rate : ℚ) (db : Db) : List Arrival → Except FillError (Db × List ℚ)
  | [] => .ok (db, [])
  | a :: as =>
    match applyFill rate db a with
    | .error e => .error e
    | .ok (db', δ) =>
      match bookFills rate db' as with
      | .error e => .error e
      | .ok (db'', δs) => .ok (db'', δ :: δs)

theorem bookFills_cons_ok {rate : ℚ} {db db' : Db} {a : Arrival} {as : List Arrival} {δs : List ℚ} :
    bookFills rate db (a :: as) = .ok (db', δs) ↔
      ∃ db₁ δ rest, applyFill rate db a = .ok (db₁, δ) ∧ bookFills rate db₁ as = .ok (db', rest) ∧
        δs = δ :: rest := by
  rw [bookFills]
  constructor
  · intro h
    cases happ : applyFill rate db a with
    | error e => simp [happ] at h
    | ok r =>
      obtain ⟨db₁, δ⟩ := r
      cases hrest : bookFills rate db₁ as with
      | error e => simp [happ, hrest] at h
      | ok s =>
        obtain ⟨db₂, rest⟩ := s
        simp only [happ, hrest, Except.ok.injEq, Prod.mk.injEq] at h
        obtain ⟨rfl, rfl⟩ := h
        exact ⟨db₁, δ, rest, rfl, hrest, rfl⟩
  · rintro ⟨db₁, δ, rest, happ, hrest, rfl⟩
    simp only [happ, hrest]

section Pieces
variable {db : Db} {t : Ticker} {side : Side} {price : ℚ} {a : Arrival} {ds : List Arrival}

theorem OrderFills.tail (h : OrderFills db t side price (a :: ds)) (fee : ℚ) (pos : Position) :
    OrderFills (db.recordFill (a.row price fee) pos) t side price ds where
  history := h.history.tail
  buys b hb := h.buys b (List.mem_cons_of_mem _ hb)
  onSide b hb := h.onSide b (List.mem_cons_of_mem _ hb)
  atPrice b hb := h.atPrice b (List.mem_cons_of_mem _ hb)

theorem OrderFills.filled_nonneg (h : OrderFills db t side price ds) : 0 ≤ filled ds := by
  apply List.sum_nonneg
  intro n hn
  obtain ⟨a, ha, rfl⟩ := List.mem_map.mp hn
  exact zero_le_one.trans (h.history.count_pos a ha)

theorem totalFeeDollars_add (m n : ℤ) (price : ℚ) (isTaker : Bool) (rate : ℚ) :
    totalFeeDollars (m + n) price isTaker rate =
      totalFeeDollars m price isTaker rate + totalFeeDollars n price isTaker rate := by
  unfold totalFeeDollars
  push_cast
  ring

@[simp] theorem totalFeeDollars_zero (price : ℚ) (isTaker : Bool) (rate : ℚ) :
    totalFeeDollars 0 price isTaker rate = 0 := by
  rw [totalFeeDollars, Int.cast_zero, mul_zero]

theorem bookFills_fees {rate : ℚ} {db' : Db} {δs : List ℚ} {isTaker : Bool}
    (h : OrderFills db t side price ds) (hclass : ∀ a ∈ ds, a.fill.isTaker = isTaker)
    (hrun : bookFills rate db ds = .ok (db', δs)) :
    ∃ rows, db'.fills = db.fills ++ rows ∧
      rows.map Fill.identity = ds.map Arrival.storedIdentity ∧
      (rows.map (fun row => row.feeDollars.toDecimal)).sum =
        totalFeeDollars (filled ds) price isTaker rate := by
  induction ds generalizing db δs with
  | nil =>
    obtain ⟨rfl, rfl⟩ := Prod.mk.inj (Except.ok.inj hrun)
    exact ⟨[], (List.append_nil _).symm, rfl, by simp⟩
  | cons a ds ih =>
    have hmem : a ∈ a :: ds := List.mem_cons_self
    obtain ⟨db₁, δ, rest, happ, hrest, rfl⟩ := bookFills_cons_ok.mp hrun
    rcases applyFill_cases happ with ⟨hdup, _⟩ | ⟨_, p, moved, gross, hread, _, _, rfl⟩
    · exact absurd hdup (Bool.eq_false_iff.mp (h.history.unseen a hmem))
    obtain rfl : p = price := by
      rw [← h.atPrice a hmem, KalshiFill.price, hread]
    obtain ⟨rows, hfills, hidentities, hsum⟩ :=
      ih (h.tail _ _) (fun b hb => hclass b (List.mem_cons_of_mem _ hb)) hrest
    refine ⟨a.row p (totalFeeDollars a.fill.count p a.fill.isTaker rate) :: rows, ?_, ?_, ?_⟩
    · rw [hfills, Db.recordFill, List.append_assoc, List.singleton_append]
    · rw [List.map_cons, List.map_cons, Arrival.row_identity, hidentities]
    · have hstored := toDecimal_priceDecimalToStr
        (fourPlaces_totalFeeDollars a.fill.count p a.fill.isTaker rate)
      rw [List.map_cons, List.sum_cons, hsum, filled_cons, totalFeeDollars_add,
        ← hclass a hmem]
      exact congrArg (· + _) hstored

theorem bookFills_returns (rate : ℚ) (h : OrderFills db t side price ds)
    (hrow : ∀ side, 0 ≤ (db.rowFor t side).count) : ∃ r, bookFills rate db ds = .ok r := by
  induction ds generalizing db with
  | nil => exact ⟨_, rfl⟩
  | cons a ds ih =>
    obtain ⟨moved, gross, hmoves, hticker, happ⟩ := h.history.books rate (hrow a.fill.side)
    rw [h.atPrice a List.mem_cons_self] at happ
    have hcount := h.history.count_pos a List.mem_cons_self
    have hkept : ∀ δ side, 0 ≤ ((db.recordFill (a.row price
        (totalFeeDollars a.fill.count price a.fill.isTaker rate)) (moved.accrue δ)).rowFor t side).count := by
      intro δ side
      rw [rowFor_recordFill, if_pos (hticker δ)]
      exact hmoves.count_nonneg (hrow a.fill.side) (by omega)
    obtain ⟨⟨db', δs⟩, hrest⟩ := ih (h.tail _ _) (hkept _)
    exact ⟨_, bookFills_cons_ok.mpr ⟨_, _, _, happ, hrest, rfl⟩⟩

end Pieces

section Moves
variable {pos moved : Position} {fill : KalshiFill} {price gross : ℚ}

theorem Moves.pairs (h : Moves pos fill price moved gross) (hbuy : fill.action = .buy)
    (hside : pos.side ≠ fill.side) (hn : 1 ≤ fill.count) (hle : fill.count ≤ pos.count) :
    gross = (1 - pos.avgPriceDollars.toDecimal - price) * fill.count ∧
      moved.side = pos.side ∧ moved.count = pos.count - fill.count ∧
      (moved.avgPriceDollars = pos.avgPriceDollars ∨ moved.count = 0) := by
  cases h with
  | opens haction hflat => omega
  | topsUp haction hheld hsame => exact absurd hsame hside
  | pairsSome => exact ⟨rfl, rfl, rfl, .inl rfl⟩
  | pairsAll haction hheld hopposite hall => exact ⟨by rw [hall], rfl, by simp [hall], .inr rfl⟩
  | flips haction hheld hopposite hmore => omega
  | sellsNone haction => cases hbuy.symm.trans haction
  | sellsSome haction => cases hbuy.symm.trans haction
  | sellsAll haction => cases hbuy.symm.trans haction

def bookedMean (avg : ℚ) (count : ℤ) (price : ℚ) (n : ℤ) : ℚ :=
  (avg * count + price * n) / ((count + n : ℤ) : ℚ)

theorem Moves.adds (h : Moves pos fill price moved gross) (hbuy : fill.action = .buy)
    (hside : pos.count = 0 ∨ pos.side = fill.side) (hn : 1 ≤ fill.count) :
    moved.side = fill.side ∧ moved.count = pos.count + fill.count ∧
      moved.avgPriceDollars =
        priceDecimalToStr (bookedMean pos.avgPriceDollars.toDecimal pos.count price fill.count) := by
  cases h with
  | opens haction hflat =>
    have hfill : (fill.count : ℚ) ≠ 0 := by exact_mod_cast (by omega : fill.count ≠ 0)
    refine ⟨rfl, by simp [hflat], congrArg priceDecimalToStr ?_⟩
    rw [bookedMean, hflat, zero_add, Int.cast_zero, mul_zero, zero_add, mul_div_cancel_right₀ _ hfill]
  | topsUp haction hheld hsame => exact ⟨hsame, rfl, rfl⟩
  | pairsSome haction hheld hopposite => exact absurd hside (not_or.mpr ⟨hheld, hopposite⟩)
  | pairsAll haction hheld hopposite => exact absurd hside (not_or.mpr ⟨hheld, hopposite⟩)
  | flips haction hheld hopposite => exact absurd hside (not_or.mpr ⟨hheld, hopposite⟩)
  | sellsNone haction => cases hbuy.symm.trans haction
  | sellsSome haction => cases hbuy.symm.trans haction
  | sellsAll haction => cases hbuy.symm.trans haction

end Moves

theorem rowFor_of_find {db : Db} {t : Ticker} {pos : Position}
    (h : db.positions.find t = some pos) (side : Side) : db.rowFor t side = pos := by
  rw [Db.rowFor, h, Option.getD_some]

theorem find_recordFill {db : Db} {row : Fill} {pos : Position} {t : Ticker}
    (h : pos.marketTicker = t) : (db.recordFill row pos).positions.find t = some pos := by
  rw [Db.recordFill, ← h, KeyedTable.find_put_self]

theorem bookFills_closes (rate : ℚ) {db : Db} {t : Ticker} {side : Side} {price : ℚ}
    {ds : List Arrival} {isTaker : Bool} {pos : Position} (h : OrderFills db t side price ds)
    (hclass : ∀ a ∈ ds, a.fill.isTaker = isTaker) (hfind : db.positions.find t = some pos)
    (hside : pos.side ≠ side) (hle : filled ds ≤ pos.count) :
    ∃ db' δs pos', bookFills rate db ds = .ok (db', δs) ∧ db'.positions.find t = some pos' ∧
      δs.sum = (1 - pos.avgPriceDollars.toDecimal - price) * filled ds -
        totalFeeDollars (filled ds) price isTaker rate ∧
      pos'.side = pos.side ∧ pos'.count = pos.count - filled ds := by
  induction ds generalizing db pos with
  | nil => exact ⟨db, [], pos, rfl, hfind, by simp, rfl, by simp⟩
  | cons a ds ih =>
    have hmem : a ∈ a :: ds := List.mem_cons_self
    have hn := h.history.count_pos a hmem
    have hrest := (h.tail 0 pos).filled_nonneg
    rw [filled_cons] at hle
    have hrow := rowFor_of_find hfind a.fill.side
    obtain ⟨moved, gross, hmoves, hticker, happ⟩ :=
      h.history.books rate (by rw [hrow]; omega)
    rw [hrow] at hmoves
    rw [h.atPrice a hmem, hclass a hmem] at happ
    rw [h.atPrice a hmem] at hmoves
    have hopposite : pos.side ≠ a.fill.side := by rwa [h.onSide a hmem]
    obtain ⟨hgross, hkept, hcount, havg⟩ := hmoves.pairs (h.buys a hmem) hopposite hn (by omega)
    obtain ⟨db', δs, pos', hrun, hfind', hsum, hside', hcount'⟩ := ih (h.tail _ _)
      (fun b hb => hclass b (List.mem_cons_of_mem _ hb)) (find_recordFill (hticker _))
      (show moved.side ≠ side from hkept ▸ hside)
      (show filled ds ≤ moved.count by omega)
    refine ⟨db', _, pos', bookFills_cons_ok.mpr ⟨_, _, _, happ, hrun, rfl⟩, hfind', ?_, ?_, ?_⟩
    · -- once the row is flat, nothing of the order is left
      have hleft : moved.avgPriceDollars.toDecimal * (filled ds : ℚ) =
          pos.avgPriceDollars.toDecimal * filled ds := by
        rcases havg with havg | hflat
        · rw [havg]
        · have hzero : filled ds = 0 := by omega
          rw [hzero, Int.cast_zero, mul_zero, mul_zero]
      have hsum' : δs.sum = (1 - moved.avgPriceDollars.toDecimal - price) * filled ds -
        totalFeeDollars (filled ds) price isTaker rate := hsum
      rw [List.sum_cons, hsum', hgross, filled_cons, totalFeeDollars_add]
      push_cast
      linear_combination hleft * (-1)
    · exact hside'.trans hkept
    · rw [hcount', filled_cons]
      show moved.count - filled ds = _
      omega

end KalshiAgent
