import KalshiAgent.Positions.ApplyFill
import KalshiAgent.Safety.Sizing

/-! The two sides of a market are alike. Mirroring swaps the side labels of positions, fills and
requests, exchanges the YES and NO prices and complements the model's probability; a check and
a booking do not see the difference. -/

namespace KalshiAgent

def Side.mirror : Side → Side
  | yes => no
  | no => yes

def Position.mirror (p : Position) : Position := { p with side := p.side.mirror }

def Fill.mirror (row : Fill) : Fill := { row with side := row.side.mirror }

def KalshiFill.mirror (fill : KalshiFill) : KalshiFill :=
  { fill with
    side := fill.side.mirror
    yesPriceDollars := fill.noPriceDollars
    noPriceDollars := fill.yesPriceDollars }

def Arrival.mirror (a : Arrival) : Arrival := { a with fill := a.fill.mirror }

def Trade.mirror (trade : Trade) : Trade :=
  { trade with side := trade.side.mirror, modelProbability := 1 - trade.modelProbability }

def FillError.mirror : FillError → FillError
  | missingPrice side fill => missingPrice side.mirror fill.mirror
  | invalidOperation => invalidOperation
  | divisionByZero => divisionByZero

theorem Position.mirror_marketTicker (p : Position) : p.mirror.marketTicker = p.marketTicker := rfl

def Db.mirror (db : Db) : Db :=
  { db with
    fills := db.fills.map Fill.mirror
    positions := db.positions.mapRows Position.mirror_marketTicker }

def mirrorBooked : Except FillError (Db × ℚ) → Except FillError (Db × ℚ)
  | .ok (db, δ) => .ok (db.mirror, δ)
  | .error e => .error e.mirror

@[simp] theorem Side.mirror_inj {s t : Side} : s.mirror = t.mirror ↔ s = t := by
  cases s <;> cases t <;> simp [mirror]

section Tables
variable (db : Db)

theorem find_mirror (ticker : Ticker) :
    db.mirror.positions.find ticker = (db.positions.find ticker).map Position.mirror :=
  KeyedTable.find_mapRows Position.mirror_marketTicker _ _

@[simp] theorem currentTotalExposureDollars_mirror :
    currentTotalExposureDollars db.mirror = currentTotalExposureDollars db :=
  KeyedTable.sum_mapRows Position.mirror_marketTicker _ _

@[simp] theorem currentPositionExposureDollars_mirror (ticker : Ticker) :
    currentPositionExposureDollars db.mirror ticker = currentPositionExposureDollars db ticker := by
  unfold currentPositionExposureDollars
  rw [find_mirror]
  cases db.positions.find ticker <;> rfl

@[simp] theorem dailyRealizedPnlDollars_mirror (tz : Tz) (clock : Clock) :
    dailyRealizedPnlDollars tz db.mirror clock = dailyRealizedPnlDollars tz db clock := by
  have hcumulative : cumulativeRealizedPnl db.mirror = cumulativeRealizedPnl db :=
    KeyedTable.sum_mapRows Position.mirror_marketTicker _ _
  unfold dailyRealizedPnlDollars realizedPnlSince
  rw [hcumulative]
  rfl

@[simp] theorem hasFill_mirror (i : FillIdentity) : db.mirror.hasFill i = db.hasFill i := by
  unfold Db.hasFill Db.mirror
  rw [List.any_map]
  rfl

theorem positionFor_mirror (fill : KalshiFill) :
    db.mirror.positionFor fill.mirror = (db.positionFor fill).mirror := by
  unfold Db.positionFor
  rw [show fill.mirror.ticker = fill.ticker from rfl, find_mirror]
  cases db.positions.find fill.ticker <;> rfl

theorem recordFill_mirror (row : Fill) (pos : Position) :
    db.mirror.recordFill row.mirror pos.mirror = (db.recordFill row pos).mirror := by
  have hput : db.mirror.positions.put pos.mirror =
      (db.positions.put pos).mapRows Position.mirror_marketTicker :=
    KeyedTable.put_mapRows _ _ _
  unfold Db.recordFill
  rw [hput]
  unfold Db.mirror
  rw [List.map_append, List.map_singleton]

end Tables

section Check
variable (cfg : Config) (db : Db) (trade : Trade)

@[simp] theorem winProbability_mirror : trade.mirror.winProbability = trade.winProbability := by
  unfold Trade.winProbability Trade.mirror
  cases trade.side with
  | yes => exact sub_sub_cancel _ _
  | no => rfl

theorem edgeAfterFeesDollars_mirror (contracts : ℤ) (price : ℚ) (isTaker : Bool) (rate : ℚ) :
    edgeAfterFeesDollars contracts trade.mirror.modelProbability price trade.mirror.side isTaker
        rate =
      edgeAfterFeesDollars contracts trade.modelProbability price trade.side isTaker rate := by
  have hwin := winProbability_mirror trade
  unfold Trade.winProbability at hwin
  unfold edgeAfterFeesDollars
  rw [hwin]

theorem edgeDecision_mirror (contracts : ℤ) :
    edgeDecision cfg trade.mirror contracts = edgeDecision cfg trade contracts := by
  unfold edgeDecision
  dsimp only
  rw [edgeAfterFeesDollars_mirror]
  rfl

theorem openingDecision_mirror :
    openingDecision cfg db.mirror trade.mirror = openingDecision cfg db trade := by
  have hwin := winProbability_mirror trade
  unfold Trade.winProbability at hwin
  unfold openingDecision
  rw [hwin, currentTotalExposureDollars_mirror, currentPositionExposureDollars_mirror]
  simp only [edgeDecision_mirror]
  rfl

theorem sizeTrade_mirror : sizeTrade cfg db.mirror trade.mirror = sizeTrade cfg db trade := by
  unfold sizeTrade
  rw [show trade.mirror.marketTicker = trade.marketTicker from rfl, find_mirror,
    openingDecision_mirror]
  cases db.positions.find trade.marketTicker with
  | none => rfl
  | some existing =>
    have hsides : existing.mirror.side ≠ trade.mirror.side ↔ existing.side ≠ trade.side :=
      not_congr Side.mirror_inj
    simp only [Option.map_some, hsides]
    rfl

theorem checkTrade_mirror (kill : KillSwitch) (st : RiskState) (clock : Clock) :
    checkTrade cfg db.mirror kill st clock trade.mirror = checkTrade cfg db kill st clock trade := by
  unfold checkTrade
  rw [dailyRealizedPnlDollars_mirror, sizeTrade_mirror]
  rfl

end Check

section Book
variable (pos : Position) (fill : KalshiFill) (price : ℚ)

def mirrorMoved : Except FillError (Position × ℚ) → Except FillError (Position × ℚ)
  | .ok (moved, gross) => .ok (moved.mirror, gross)
  | .error e => .error e.mirror

theorem fillPrice_mirror :
    fillPrice fill.mirror = (fillPrice fill).mapError FillError.mirror := by
  have hraw : (if fill.mirror.side = .yes then fill.mirror.yesPriceDollars
        else fill.mirror.noPriceDollars) =
      if fill.side = .yes then fill.yesPriceDollars else fill.noPriceDollars := by
    unfold KalshiFill.mirror
    cases fill.side <;> rfl
  unfold fillPrice
  rw [hraw]
  cases truthy (if fill.side = .yes then fill.yesPriceDollars else fill.noPriceDollars) with
  | none => rfl
  | some raw => cases hdecimal : priceStrToDecimal raw <;> simp [hdecimal] <;> rfl

theorem buy_mirror (side : Side) (n : ℤ) :
    pos.mirror.buy side.mirror n price = mirrorMoved (pos.buy side n price) := by
  unfold Position.buy Position.mirror
  simp only [Side.mirror_inj]
  split_ifs <;> rfl

theorem sell_mirror (side : Side) (n : ℤ) :
    pos.mirror.sell side.mirror n price =
      ((pos.sell side n price).1.mirror, (pos.sell side n price).2) := by
  unfold Position.sell Position.mirror
  simp only [ne_eq, Side.mirror_inj]
  split_ifs <;> rfl

theorem trade_mirror :
    pos.mirror.trade fill.mirror price = mirrorMoved (pos.trade fill price) := by
  unfold Position.trade
  rw [show fill.mirror.action = fill.action from rfl]
  cases fill.action with
  | buy => exact buy_mirror pos price fill.side fill.count
  | sell => exact congrArg Except.ok (sell_mirror pos price fill.side fill.count)

end Book

theorem applyFill_mirror (rate : ℚ) (db : Db) (a : Arrival) :
    applyFill rate db.mirror a.mirror = mirrorBooked (applyFill rate db a) := by
  unfold applyFill
  rw [show a.mirror.lookupIdentity = a.lookupIdentity from rfl, hasFill_mirror,
    show a.mirror.fill = a.fill.mirror from rfl, fillPrice_mirror, positionFor_mirror]
  cases db.hasFill a.lookupIdentity with
  | true => rfl
  | false =>
    cases fillPrice a.fill with
    | error e => rfl
    | ok price =>
      simp only [Except.mapError, trade_mirror]
      cases (db.positionFor a.fill).trade a.fill price with
      | error e => rfl
      | ok mg =>
        obtain ⟨moved, gross⟩ := mg
        simp only [mirrorMoved, mirrorBooked, Bool.false_eq_true, if_false, ← recordFill_mirror]
        rfl

/-- Checks and bookings are symmetric in the two sides of a market. -/
theorem sides_symmetric (cfg : Config) (db : Db) (kill : KillSwitch) (st : RiskState) (clock : Clock)
    (trade : Trade) (rate : ℚ) (a : Arrival) :
    checkTrade cfg db.mirror kill st clock trade.mirror = checkTrade cfg db kill st clock trade ∧
      applyFill rate db.mirror a.mirror = mirrorBooked (applyFill rate db a) :=
  ⟨checkTrade_mirror cfg db trade kill st clock, applyFill_mirror rate db a⟩

end KalshiAgent
