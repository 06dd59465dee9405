import KalshiAgent.Safety.Pnl

/-! The PnL route of the observer API: the fees, the fill count and the realized PnL since the
start of a period. -/

namespace KalshiAgent

inductive PnlPeriod
  | today
  | week
  | month
  | all
  deriving DecidableEq

/-- The answer of the route, with its figures as they are before `float(...)`. -/
structure PnlReport where
  period : PnlPeriod
  cutoffUtc : Time
  feesDollars : ℚ
  tradeCount : ℕ
  realizedPnlDollars : ℚ

def PnlPeriod.cutoff (tz : Tz) (now : Time) : PnlPeriod → Time
  | .today => tz.midnight (tz.localDay now)
  | .week => now - timedeltaDays 7
  | .month => now - timedeltaDays 30
  | .all => 0

def fillsSince (db : Db) (cutoff : Time) : List Fill :=
  db.fills.filter (fun f => cutoff ≤ f.createdAt)

def pnl (db : Db) (tz : Tz) (now : Time) (period : PnlPeriod) : PnlReport :=
  let cutoff := period.cutoff tz now
  let fills := fillsSince db cutoff
  { period := period
    cutoffUtc := cutoff
    feesDollars := (fills.map (fun f => f.feeDollars.toDecimal)).sum
    tradeCount := fills.length
    realizedPnlDollars :=
      if period = .all then cumulativeRealizedPnl db else realizedPnlSince db cutoff tz }

end KalshiAgent
