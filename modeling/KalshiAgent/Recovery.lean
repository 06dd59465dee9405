import KalshiAgent.Execution.Executor

/-! Startup recovery: the orders that were pending when the process died are looked up on the
exchange. A `client_order_id` is a uuid and unique among the rows, so it names its row. -/

namespace KalshiAgent

inductive ServerStatus
  | resting
  | executed
  | canceled
  deriving DecidableEq

def ServerStatus.text : ServerStatus → String
  | resting => "resting"
  | executed => "executed"
  | canceled => "canceled"

structure ServerOrder where
  orderId : String
  clientOrderId : String
  status : ServerStatus
  deriving DecidableEq

structure InFlight where
  clientOrderId : String
  kalshiOrderId : Option String
  deriving DecidableEq

def inFlightOrders (db : Db) : List InFlight :=
  (db.orders.filter (fun o => o.status = "pending")).map
    (fun o => ⟨o.clientOrderId, o.kalshiOrderId⟩)

/-- The two dicts of remote orders: of two with one key, the later one is in the dict. -/
def matchRemote (remote : List ServerOrder) (item : InFlight) : Option ServerOrder :=
  match remote.reverse.find? (fun o => o.clientOrderId = item.clientOrderId) with
  | some o => some o
  | none =>
    match item.kalshiOrderId with
    | none => none
    | some kid => remote.reverse.find? (fun o => o.orderId = kid)

structure RecoverySummary where
  pending : ℕ
  recovered : ℕ
  lost : ℕ
  error : Option String
  deriving DecidableEq

def Agent.addEvent (agent : Agent) (kind level message : String) : Agent :=
  { agent with db := { agent.db with
      events := agent.db.events ++ [⟨kind, level, message, .null⟩] } }

def recoverOrder (agent : Agent) (remote : List ServerOrder) (summary : RecoverySummary)
    (item : InFlight) : Agent × RecoverySummary :=
  match matchRemote remote item with
  | some o =>
    ((agent.updateOrder item.clientOrderId
        (fun row => { row with kalshiOrderId := some o.orderId, status := o.status.text })).addEvent
        "recovery" "info" ("recovered in-flight order " ++ item.clientOrderId ++ " -> " ++
          o.orderId ++ "/" ++ o.status.text),
      { summary with recovered := summary.recovered + 1 })
  | none =>
    ((agent.updateOrder item.clientOrderId (fun row => { row with status := "lost" })).addEvent
        "recovery" "warning" ("lost in-flight order " ++ item.clientOrderId ++
          ": not present on Kalshi after restart"),
      { summary with lost := summary.lost + 1 })

/-- Where `recover_in_flight_orders` is: not started in this process, at the next of its list
calls, at the rows still to be written, or over. -/
inductive Recovery
  | waiting
  | listing (items : List InFlight) (todo : List ServerStatus) (remote : List ServerOrder)
  | committing (items : List InFlight) (remote : List ServerOrder) (summary : RecoverySummary)
  | ended (summary : RecoverySummary)
  deriving DecidableEq

def Recovery.start (db : Db) : Recovery :=
  .listing (inFlightOrders db) [.resting, .executed, .canceled] []

def Recovery.listed (items : List InFlight) (todo : List ServerStatus)
    (remote page : List ServerOrder) : Recovery :=
  match todo.tail with
  | [] => .committing items (remote ++ page) ⟨items.length, 0, 0, none⟩
  | todo => .listing items todo (remote ++ page)

theorem mem_matchRemote {remote : List ServerOrder} {item : InFlight} {o : ServerOrder}
    (ho : o ∈ remote) (hid : o.clientOrderId = item.clientOrderId) :
    ∃ o' ∈ remote, o'.clientOrderId = item.clientOrderId ∧ matchRemote remote item = some o' := by
  unfold matchRemote
  cases hfind : remote.reverse.find? (fun o => o.clientOrderId = item.clientOrderId) with
  | none =>
    have hnone := List.find?_eq_none.mp hfind o (List.mem_reverse.mpr ho)
    exact absurd (decide_eq_true hid) hnone
  | some o' =>
    have hkey := List.find?_some hfind
    exact ⟨o', List.mem_reverse.mp (List.mem_of_find?_eq_some hfind), of_decide_eq_true hkey, rfl⟩

/-- What the session of an order does to the rows: with a remote order of its id they are written
to it, and without one only rows of that id change. -/
theorem recoverOrder_orders (agent : Agent) (remote : List ServerOrder) (summary : RecoverySummary)
    (item : InFlight) :
    ∃ change : Order → Order, (recoverOrder agent remote summary item).1.db.orders =
        (agent.updateOrder item.clientOrderId change).db.orders ∧
      (∀ row, (change row).clientOrderId = row.clientOrderId ∧ (change row).status ≠ "pending") ∧
      ((∃ o, matchRemote remote item = some o ∧
          ∀ row, (change row).kalshiOrderId = some o.orderId ∧ (change row).status = o.status.text) ∨
        (matchRemote remote item = none ∧ ∀ row, (change row).status = "lost")) := by
  unfold recoverOrder
  cases hmatch : matchRemote remote item with
  | some o =>
    refine ⟨_, rfl, fun row => ⟨rfl, ?_⟩, .inl ⟨o, rfl, fun row => ⟨rfl, rfl⟩⟩⟩
    cases o.status <;> simp [ServerStatus.text]
  | none => exact ⟨_, rfl, fun row => ⟨rfl, by simp⟩, .inr ⟨rfl, fun row => rfl⟩⟩

end KalshiAgent
