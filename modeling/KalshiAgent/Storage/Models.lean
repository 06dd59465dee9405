import KalshiAgent.Safety.KillSwitch
import KalshiAgent.Lib.KeyedTable

/-! The tables of the local database. Rows with an autoincrement id are lists in insertion
order, rows with their own primary key are keyed tables. A float column that holds dollars is
read as the exact decimal written to it. -/

namespace KalshiAgent

structure Decision where
  createdAt : Time
  strategy : String
  marketTicker : Ticker
  side : Side
  modelProbability : ℚ
  confidence : ℚ
  rationale : String
  validUntil : Time
  accepted : Bool
  rejectionReason : Option String
  orderId : Option String
  deriving DecidableEq

structure Order where
  clientOrderId : String
  kalshiOrderId : Option String
  marketTicker : Ticker
  side : Side
  action : Action
  count : ℤ
  priceDollars : Dollars4
  status : String
  decisionId : Option ℕ
  deriving DecidableEq

structure Fill where
  createdAt : Time
  kalshiOrderId : String
  marketTicker : Ticker
  side : Side
  count : ℤ
  priceDollars : Dollars4
  feeDollars : Dollars4
  isTaker : Bool
  deriving DecidableEq

structure Position where
  marketTicker : Ticker
  side : Side
  count : ℤ
  avgPriceDollars : Dollars4
  realizedPnlDollars : ℚ
  deriving DecidableEq

inductive Discrepancy
  | missingLocal (ticker : Ticker) (remote : ℤ)
  | mismatch (ticker : Ticker) (localSide : Side) (localCount : ℤ) (remoteSide : Side) (remoteCount : ℤ)
  | missingRemote (ticker : Ticker) (localSide : Side) (localCount : ℤ)
  deriving DecidableEq

inductive EventPayload
  | null
  | fill (ticker : Ticker) (side : Side) (count : ℤ) (realized : ℚ)
  | reconciliation (discrepancies : List Discrepancy) (source : String)
  | halt (reason : Option Halt) (cancelled : ℤ)
  deriving DecidableEq

structure Event where
  kind : String
  level : String
  message : String
  payload : EventPayload
  deriving DecidableEq

structure PnlDaily where
  -- the local date, as a day number: the `YYYY-MM-DD` keys sort in the same order
  day : ℤ
  realizedPnl : ℚ
  fees : ℚ
  tradeCount : ℕ
  deriving DecidableEq

structure Db where
  decisions : List Decision
  orders : List Order
  fills : List Fill
  positions : KeyedTable Position.marketTicker
  events : List Event
  pnlDaily : KeyedTable PnlDaily.day
  deriving DecidableEq

def Db.empty : Db := ⟨[], [], [], .empty, [], .empty⟩

def Position.exposure (p : Position) : ℚ := p.avgPriceDollars.toDecimal * p.count

/-- Contracts held, positive on YES and negative on NO. -/
def Position.signed (p : Position) : ℤ := p.side.sign * p.count

def Db.signed (db : Db) (t : Ticker) : ℤ := ((db.positions.find t).map Position.signed).getD 0

end KalshiAgent
