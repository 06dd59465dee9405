import KalshiAgent.Positions.History
import KalshiAgent.Safety.RiskMonitor

/-! What booking a buy does to the exposure of its row. The contracts that it pairs off lower it, and
those that it opens raise it by no more than their cost and the rounding of the new average. -/

namespace KalshiAgent

/-- The contracts of a row that a buy of this side pairs off. -/
def Position.against (pos : Position) (side : Side) : ℤ := if pos.side ≠ side then pos.count else 0

/-- The contracts of a buy that the row pairs off, and those that it opens. -/
def Position.paired (pos : Position) (fill : KalshiFill) : ℤ :=
  min (pos.against fill.side) fill.count

def Position.opened (pos : Position) (fill : KalshiFill) : ℤ := fill.count - pos.paired fill

def Db.heldAgainst (db : Db) (t : Ticker) (side : Side) : ℤ :=
  ((db.positions.find t).map (fun pos => pos.against side)).getD 0

def Db.held (db : Db) (t : Ticker) : ℤ := ((db.positions.find t).map Position.count).getD 0

def NonnegRows (db : Db) : Prop :=
  ∀ p ∈ db.positions.rows, 0 ≤ p.count ∧ 0 ≤ p.avgPriceDollars.toDecimal

theorem toDecimal_priceDecimalToStr_nonneg {d : ℚ} (h : 0 ≤ d) :
    0 ≤ (priceDecimalToStr d).toDecimal := le_priceDecimalToStr fourPlaces_zero h

theorem toDecimal_priceDecimalToStr_le (d : ℚ) : (priceDecimalToStr d).toDecimal ≤ d + 1 / 20000 := by
  have h := (abs_le.mp (abs_priceDecimalToStr_sub_le d)).2
  linarith

theorem rounded_mul_le (d : ℚ) {count : ℚ} (hcount : 0 ≤ count) :
    (priceDecimalToStr d).toDecimal * count ≤ d * count + count / 20000 := by
  calc (priceDecimalToStr d).toDecimal * count
      ≤ (d + 1 / 20000) * count := by
        gcongr
        exact toDecimal_priceDecimalToStr_le d
    _ = d * count + count / 20000 := by ring

section Moves
variable {pos moved : Position} {fill : KalshiFill} {price gross : ℚ}

namespace Position

theorem paired_of_eq (hside : pos.side = fill.side) (hn : 0 ≤ fill.count) : pos.paired fill = 0 := by
  rw [paired, against, if_neg (not_not.mpr hside)]
  exact min_eq_left hn

theorem paired_of_ne (hside : pos.side ≠ fill.side) : pos.paired fill = min pos.count fill.count := by
  rw [paired, against, if_pos hside]

theorem paired_nonneg (hpos : 0 ≤ pos.count) (hn : 0 ≤ fill.count) : 0 ≤ pos.paired fill := by
  by_cases hside : pos.side = fill.side
  · exact (paired_of_eq hside hn).ge
  · rw [paired_of_ne hside]
    exact le_min hpos hn

theorem opened_nonneg (pos : Position) (fill : KalshiFill) : 0 ≤ pos.opened fill :=
  sub_nonneg.mpr (min_le_right _ _)

theorem opened_le (hpos : 0 ≤ pos.count) (hn : 0 ≤ fill.count) : pos.opened fill ≤ fill.count :=
  sub_le_self _ (paired_nonneg hpos hn)

end Position

theorem Moves.avgPrice_nonneg (h : Moves pos fill price moved gross) (hbuy : fill.action = .buy)
    (hpos : 0 ≤ pos.count) (havg : 0 ≤ pos.avgPriceDollars.toDecimal) (hn : 1 ≤ fill.count)
    (hprice : 0 ≤ price) : 0 ≤ moved.avgPriceDollars.toDecimal := by
  have hcount : (0 : ℚ) ≤ pos.count := by exact_mod_cast hpos
  have hfill : (0 : ℚ) ≤ fill.count := by exact_mod_cast (by omega : (0 : ℤ) ≤ fill.count)
  cases h with
  | opens => exact toDecimal_priceDecimalToStr_nonneg hprice
  | topsUp =>
    apply toDecimal_priceDecimalToStr_nonneg
    push_cast
    positivity
  | pairsSome => exact havg
  | pairsAll => exact Dollars4.toDecimal_zero.ge
  | flips => exact toDecimal_priceDecimalToStr_nonneg hprice
  | sellsNone haction => cases hbuy.symm.trans haction
  | sellsSome haction => cases hbuy.symm.trans haction
  | sellsAll haction => cases hbuy.symm.trans haction

theorem Moves.exposure_le (h : Moves pos fill price moved gross) (hbuy : fill.action = .buy)
    (hpos : 0 ≤ pos.count) (havg : 0 ≤ pos.avgPriceDollars.toDecimal) (hn : 1 ≤ fill.count) :
    moved.exposure ≤ (if pos.paired fill < pos.count then pos.exposure else 0) +
      price * pos.opened fill + (if pos.opened fill = 0 then 0 else (moved.count : ℚ) / 20000) := by
  have hmoved : (0 : ℚ) ≤ moved.count := by
    exact_mod_cast h.count_nonneg hpos (by omega : 0 ≤ fill.count)
  unfold Position.exposure Position.opened
  cases h with
  | opens haction hflat =>
    have hpaired : pos.paired fill = 0 := by
      by_cases hside : pos.side = fill.side
      · exact Position.paired_of_eq hside (by omega)
      · rw [Position.paired_of_ne hside, hflat]
        omega
    have hround := rounded_mul_le price hmoved
    rw [hpaired, hflat, if_neg (lt_irrefl 0), sub_zero, if_neg (by omega), zero_add]
    exact hround
  | topsUp haction hheld hside hsum =>
    have hpaired : pos.paired fill = 0 := Position.paired_of_eq hside (by omega)
    have hround := rounded_mul_le
      ((pos.avgPriceDollars.toDecimal * pos.count + price * fill.count) /
        ((pos.count + fill.count : ℤ) : ℚ)) hmoved
    have hne : ((pos.count + fill.count : ℤ) : ℚ) ≠ 0 := by exact_mod_cast hsum
    rw [hpaired, sub_zero, if_pos (by omega), if_neg (by omega)]
    dsimp only at hround ⊢
    rwa [div_mul_cancel₀ _ hne] at hround
  | pairsSome haction hheld hside hless =>
    have hpaired : pos.paired fill = fill.count :=
      (Position.paired_of_ne hside).trans (min_eq_right hless.le)
    have hleft : pos.avgPriceDollars.toDecimal * ((pos.count - fill.count : ℤ) : ℚ) ≤
        pos.avgPriceDollars.toDecimal * pos.count := by
      gcongr
      omega
    rw [hpaired, if_pos hless, sub_self, if_pos rfl, Int.cast_zero, mul_zero, add_zero, add_zero]
    exact hleft
  | pairsAll haction hheld hside hall =>
    have hpaired : pos.paired fill = fill.count :=
      (Position.paired_of_ne hside).trans (min_eq_right hall.le)
    rw [hpaired, if_neg (by omega), sub_self, if_pos rfl]
    simp
  | flips haction hheld hside hmore =>
    have hpaired : pos.paired fill = pos.count :=
      (Position.paired_of_ne hside).trans (min_eq_left hmore.le)
    have hround := rounded_mul_le price hmoved
    rw [hpaired, if_neg (lt_irrefl _), if_neg (by omega), zero_add]
    exact hround
  | sellsNone haction => cases hbuy.symm.trans haction
  | sellsSome haction => cases hbuy.symm.trans haction
  | sellsAll haction => cases hbuy.symm.trans haction

end Moves

theorem positionFor_nonneg {db : Db} (h : NonnegRows db) (fill : KalshiFill) :
    0 ≤ (db.positionFor fill).count ∧ 0 ≤ (db.positionFor fill).avgPriceDollars.toDecimal := by
  unfold Db.positionFor
  cases hfind : db.positions.find fill.ticker with
  | none => exact ⟨le_rfl, Dollars4.toDecimal_zero.ge⟩
  | some pos => exact h pos (KeyedTable.mem_of_find hfind)

section Record
variable {db : Db} {row : Fill} {fill : KalshiFill} {pos : Position}

theorem recordFill_exposure (hticker : pos.marketTicker = fill.ticker) :
    currentTotalExposureDollars (db.recordFill row pos) =
      currentTotalExposureDollars db + pos.exposure - (db.positionFor fill).exposure := by
  unfold currentTotalExposureDollars Db.recordFill Db.positionFor
  rw [KeyedTable.sum_put, hticker]
  cases db.positions.find fill.ticker with
  | none => simp [newPosition, Position.exposure]
  | some old => rfl

theorem recordFill_held (hticker : pos.marketTicker = fill.ticker) :
    (db.recordFill row pos).held fill.ticker = pos.count := by
  unfold Db.held Db.recordFill
  rw [← hticker, KeyedTable.find_put_self]
  rfl

end Record

section Book
variable {rate δ : ℚ} {db db' : Db} {a : Arrival}

/-- Booking a new buy puts one row, whose exposure is bounded by the row that was there. -/
theorem applyFill_exposure (h : applyFill rate db a = .ok (db', δ))
    (hnew : db.hasFill a.lookupIdentity = false) (hrows : NonnegRows db)
    (hbuy : a.fill.action = .buy) (hn : 1 ≤ a.fill.count) (hprice : 0 ≤ a.fill.price) :
    NonnegRows db' ∧ ∃ moved, db'.positions = db.positions.put moved ∧
      moved.marketTicker = a.fill.ticker ∧
      moved.exposure ≤ (if (db.positionFor a.fill).paired a.fill < (db.positionFor a.fill).count
          then (db.positionFor a.fill).exposure else 0) +
        a.fill.price * (db.positionFor a.fill).opened a.fill +
        (if (db.positionFor a.fill).opened a.fill = 0 then 0
          else (db'.held a.fill.ticker : ℚ) / 20000) := by
  rcases applyFill_cases h with ⟨hdup, _, _⟩ | ⟨_, price, moved, gross, hread, htrade, _, rfl⟩
  · exact absurd (hnew.symm.trans hdup) Bool.false_ne_true
  obtain rfl : a.fill.price = price := by rw [KalshiFill.price, hread]
  obtain ⟨hpos, havg⟩ := positionFor_nonneg hrows a.fill
  have hmoves := trade_moves htrade
  have hticker : (moved.accrue δ).marketTicker = a.fill.ticker :=
    hmoves.marketTicker.trans (positionFor_marketTicker db a.fill)
  refine ⟨?_, moved.accrue δ, rfl, hticker, ?_⟩
  · intro p hp
    rcases KeyedTable.mem_put.mp hp with rfl | ⟨hold, _⟩
    · exact ⟨hmoves.count_nonneg hpos (by omega), hmoves.avgPrice_nonneg hbuy hpos havg hn hprice⟩
    · exact hrows p hold
  · rw [recordFill_held hticker]
    exact hmoves.exposure_le hbuy hpos havg hn

end Book

end KalshiAgent
