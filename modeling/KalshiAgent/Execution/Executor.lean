import KalshiAgent.Kalshi.Client
import KalshiAgent.Positions.Deliveries
import KalshiAgent.Safety.RiskMonitor

/-! The executor: a signal is validated, sized and sent as one idempotent order. The code between
two awaits is one function on the agent's state; a stage that returns no value ends the call. -/

namespace KalshiAgent

structure Signal where
  marketTicker : Ticker
  side : Side
  modelProbability : ℚ
  confidence : ℚ
  rationale : String
  validUntil : Time
  strategyName : String
  modelProbability_mem : 0 ≤ modelProbability ∧ modelProbability ≤ 1
  confidence_mem : 0 ≤ confidence ∧ confidence ≤ 1

def Signal.isExpired (signal : Signal) (now : Time) : Bool := signal.validUntil ≤ now

structure Market where
  category : Option String
  status : Option String
  yesAskDollars : Option DecimalText
  noAskDollars : Option DecimalText

def Market.ask (market : Market) (side : Side) : Option DecimalText :=
  if side = .yes then market.yesAskDollars else market.noAskDollars

structure OrderRequest where
  ticker : Ticker
  side : Side
  action : Action
  count : ℤ
  yesPriceDollars : Option Dollars4
  noPriceDollars : Option Dollars4
  clientOrderId : String
  deriving DecidableEq

def OrderRequest.limit (request : OrderRequest) : Dollars4 :=
  (if request.side = .yes then request.yesPriceDollars else request.noPriceDollars).getD .zero

structure OrderResponse where
  orderId : String
  status : String
  deriving DecidableEq

structure Agent where
  db : Db
  kill : KillSwitch
  risk : RiskState

namespace Agent

/-- The row id of the next decision is the number of decisions then. -/
def persistDecision (agent : Agent) (signal : Signal) (accepted : Bool) (reason : Option String)
    (orderId : Option String) (now : Time) : Agent :=
  let row : Decision := {
    createdAt := now
    strategy := signal.strategyName
    marketTicker := signal.marketTicker
    side := signal.side
    modelProbability := signal.modelProbability
    confidence := signal.confidence
    rationale := signal.rationale
    validUntil := signal.validUntil
    accepted := accepted
    rejectionReason := reason
    orderId := orderId }
  { agent with db := { agent.db with decisions := agent.db.decisions ++ [row] } }

def reject (agent : Agent) (signal : Signal) (reason : String) (now : Time) : Agent :=
  agent.persistDecision signal false (some reason) none now

def recordError (cfg : Config) (agent : Agent) (clock : Clock) : Agent :=
  let (kill, risk) := KalshiAgent.recordError cfg.risk agent.kill agent.risk clock
  { agent with kill := kill, risk := risk }

def updateOrder (agent : Agent) (clientOrderId : String) (change : Order → Order) : Agent :=
  { agent with db := { agent.db with
      orders := agent.db.orders.map (fun row =>
        if row.clientOrderId = clientOrderId then change row else row) } }

end Agent

def preflight (agent : Agent) (signal : Signal) (now : Time) : Agent × Option Unit :=
  if signal.isExpired now then (agent.reject signal "signal_expired" now, none)
  else (agent, some ())

def quoteMarket (cfg : Config) (agent : Agent) (signal : Signal) (fetched : Except ClientError Market)
    (clock : Clock) : Agent × Option (ℚ × Option String) :=
  match fetched with
  | .error (.other _) => (agent, none)
  | .error e =>
    ((agent.recordError cfg clock).reject signal ("market_fetch_failed:" ++ e.text) clock.now, none)
  | .ok market =>
    if (market.status.getD "").toLower ∉ ["active", "open"] then
      (agent.reject signal ("market_not_active:" ++ market.status.getD "None") clock.now, none)
    else
      match truthy (market.ask signal.side) with
      | none => (agent.reject signal "no_ask_price" clock.now, none)
      | some ask =>
        match priceStrToDecimal ask with
        | none => (agent, none)
        | some currentPrice => (agent, some (currentPrice, market.category))

def Signal.trade (signal : Signal) (currentPrice : ℚ) (category : Option String) (bankroll : ℚ) :
    Trade where
  marketTicker := signal.marketTicker
  side := signal.side
  modelProbability := signal.modelProbability
  currentPrice := currentPrice
  confidence := signal.confidence
  bankrollDollars := bankroll
  marketCategory := category

def placeOrder (agent : Agent) (signal : Signal) (currentPrice : ℚ) (contracts : ℤ)
    (clientOrderId : String) (clock : Clock) : Agent × OrderRequest :=
  let agent := agent.persistDecision signal true none (some clientOrderId) clock.now
  let price := priceDecimalToStr currentPrice
  let row : Order := {
    clientOrderId := clientOrderId
    kalshiOrderId := none
    marketTicker := signal.marketTicker
    side := signal.side
    action := .buy
    count := contracts
    priceDollars := price
    status := "pending"
    decisionId := some agent.db.decisions.length }
  let request : OrderRequest := {
    ticker := signal.marketTicker
    side := signal.side
    action := .buy
    count := contracts
    yesPriceDollars := if signal.side = .yes then some price else none
    noPriceDollars := if signal.side = .no then some price else none
    clientOrderId := clientOrderId }
  ({ agent with
      db := { agent.db with orders := agent.db.orders ++ [row] }
      risk := agent.risk.recordOrderAttempt clock }, request)

/-- From the bankroll to the order's request: `clock` is read by the risk checks, `later` after
them. -/
def approve (cfg : Config) (agent : Agent) (signal : Signal) (currentPrice : ℚ)
    (category : Option String) (fetched : Except ClientError ℚ) (clock later : Clock)
    (clientOrderId : String) : Agent × Option OrderRequest :=
  match fetched with
  | .error _ => (agent, none)
  | .ok bankroll =>
    if bankroll ≤ 0 then (agent.reject signal "zero_bankroll" clock.now, none)
    else
      let (kill, decision) := checkTrade cfg agent.db agent.kill agent.risk clock
        (signal.trade currentPrice category bankroll)
      let agent := { agent with kill := kill }
      if decision.allowed then
        if signal.isExpired later.now then
          (agent.reject signal "signal_expired_preflight" later.now, none)
        else
          let (agent, request) :=
            placeOrder agent signal currentPrice decision.sizedContracts clientOrderId later
          (agent, some request)
      else
        let reason := (decision.reason.map RiskReason.text).getD "risk_rejected"
        (agent.reject signal reason clock.now, none)

/-- After `create_order`: only the client's own two exceptions are caught. -/
def recordOutcome (cfg : Config) (agent : Agent) (clientOrderId : String)
    (outcome : Except ClientError OrderResponse) (clock : Clock) : Agent :=
  match outcome with
  | .ok response =>
    agent.updateOrder clientOrderId
      (fun row => { row with kalshiOrderId := some response.orderId, status := response.status })
  | .error (.other _) => agent
  | .error _ =>
    (agent.recordError cfg clock).updateOrder clientOrderId
      (fun row => { row with status := "send_failed" })

def Db.Logs (db db' : Db) : Prop :=
  ∃ rows, db' = { db with decisions := db.decisions ++ rows }

theorem Db.Logs.refl (db : Db) : db.Logs db := ⟨[], by rw [List.append_nil]⟩

theorem Db.Logs.booked {db db' : Db} (h : db.Logs db') : db'.booked = db.booked := by
  obtain ⟨rows, rfl⟩ := h
  rfl

theorem Db.Logs.orders {db db' : Db} (h : db.Logs db') : db'.orders = db.orders := by
  obtain ⟨rows, rfl⟩ := h
  rfl

theorem Agent.persistDecision_logs (agent : Agent) (signal : Signal) (accepted : Bool)
    (reason orderId : Option String) (now : Time) :
    agent.db.Logs (agent.persistDecision signal accepted reason orderId now).db :=
  ⟨_, rfl⟩

theorem Agent.reject_logs (agent : Agent) (signal : Signal) (reason : String) (now : Time) :
    agent.db.Logs (agent.reject signal reason now).db :=
  agent.persistDecision_logs signal false (some reason) none now

theorem mem_updateOrder {agent : Agent} {id : String} {change : Order → Order} {row' : Order} :
    row' ∈ (agent.updateOrder id change).db.orders ↔ ∃ row ∈ agent.db.orders,
      (row.clientOrderId = id ∧ change row = row') ∨ (row.clientOrderId ≠ id ∧ row = row') := by
  simp only [Agent.updateOrder, List.mem_map]
  refine exists_congr fun row => and_congr_right fun _ => ?_
  split_ifs with h
  · simp [h]
  · simp [h]

section Stages
variable {cfg : Config} {agent agent' : Agent} {signal : Signal} {clock later : Clock}

/-- An order leaves the risk checks only while there is no HALT file, and none appears there. -/
theorem approve_some {currentPrice : ℚ} {category : Option String} {fetched : Except ClientError ℚ}
    {clientOrderId : String} {request : OrderRequest}
    (h : approve cfg agent signal currentPrice category fetched clock later clientOrderId =
      (agent', some request)) :
    agent.kill.isEngaged = false ∧ agent'.kill = agent.kill ∧ 0 < currentPrice ∧
      ∃ bankroll,
        (sizeTrade cfg agent.db (signal.trade currentPrice category bankroll)).allowed = true ∧
        (agent', request) = placeOrder agent signal currentPrice
          (sizeTrade cfg agent.db (signal.trade currentPrice category bankroll)).sizedContracts
          clientOrderId later := by
  unfold approve at h
  cases fetched with
  | error e => cases h
  | ok bankroll =>
    dsimp only at h
    split_ifs at h with hzero hallowed hexpired
    · cases h
    · cases h
    · obtain ⟨hkill, hsame, hpos, _, hsize⟩ := checkTrade_allowed hallowed
      rw [hsize] at hallowed
      simp only [hsame, hsize, Prod.mk.injEq, Option.some.injEq] at h
      refine ⟨hkill, ?_, hpos, bankroll, hallowed, ?_⟩
      · rw [← h.1]
        rfl
      · exact Prod.ext h.1.symm h.2.symm
    · cases h

theorem preflight_logs (agent : Agent) (signal : Signal) (now : Time) :
    agent.db.Logs (preflight agent signal now).1.db := by
  unfold preflight
  split_ifs
  · exact agent.reject_logs signal _ now
  · exact .refl agent.db

theorem quoteMarket_logs (cfg : Config) (agent : Agent) (signal : Signal)
    (fetched : Except ClientError Market) (clock : Clock) :
    agent.db.Logs (quoteMarket cfg agent signal fetched clock).1.db := by
  unfold quoteMarket
  cases fetched with
  | error e =>
    cases e with
    | api statusCode body => exact (agent.recordError cfg clock).reject_logs signal _ _
    | auth message => exact (agent.recordError cfg clock).reject_logs signal _ _
    | other message => exact .refl agent.db
  | ok market =>
    dsimp only
    split_ifs
    · cases truthy (market.ask signal.side) with
      | none => exact agent.reject_logs signal _ _
      | some ask =>
        dsimp only
        cases priceStrToDecimal ask <;> exact .refl agent.db
    · exact agent.reject_logs signal _ _

theorem approve_none_logs {currentPrice : ℚ} {category : Option String}
    {fetched : Except ClientError ℚ} {clientOrderId : String}
    (h : approve cfg agent signal currentPrice category fetched clock later clientOrderId =
      (agent', none)) : agent.db.Logs agent'.db := by
  unfold approve at h
  cases fetched with
  | error e =>
    cases h
    exact .refl agent.db
  | ok bankroll =>
    dsimp only at h
    split_ifs at h
    all_goals cases h
    all_goals exact agent.reject_logs signal _ _

theorem recordOutcome_booked (cfg : Config) (agent : Agent) (clientOrderId : String)
    (outcome : Except ClientError OrderResponse) (clock : Clock) :
    (recordOutcome cfg agent clientOrderId outcome clock).db.booked = agent.db.booked := by
  unfold recordOutcome
  cases outcome with
  | ok response => rfl
  | error e => cases e <;> rfl

theorem placeOrder_request {currentPrice : ℚ} {contracts : ℤ} {clientOrderId : String}
    {request : OrderRequest}
    (h : (agent', request) = placeOrder agent signal currentPrice contracts clientOrderId clock) :
    agent'.db.booked = agent.db.booked ∧ request.ticker = signal.marketTicker ∧
      request.side = signal.side ∧ request.action = .buy ∧ request.count = contracts ∧
      request.limit = priceDecimalToStr currentPrice := by
  cases h
  refine ⟨rfl, rfl, rfl, rfl, rfl, ?_⟩
  unfold OrderRequest.limit
  cases signal.side <;> rfl

end Stages

def buySignal : Signal where
  marketTicker := "FOO"
  side := .yes
  modelProbability := 9 / 10
  confidence := 1
  rationale := ""
  validUntil := 1000000
  strategyName := "placeholder"
  modelProbability_mem := by decide +kernel
  confidence_mem := by decide +kernel

end KalshiAgent
