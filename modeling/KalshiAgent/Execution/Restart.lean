import KalshiAgent.Execution.WriteAhead
import KalshiAgent.Recovery
import KalshiAgent.Safety.HaltActions

/-! Orders across a restart: the service, the exchange that accepts its orders, and the recovery
of each process. The exchange keeps one order per client order id and may accept a request whose
response is lost; recovery looks the pending rows up, and them alone. -/

namespace KalshiAgent
open Execution

structure Restarting where
  service : Service
  -- what the exchange holds
  server : List ServerOrder
  recovery : Recovery

def Restarting.start (kill : KillSwitch) : Restarting := ⟨.start kill, [], .waiting⟩

inductive RestartStep
  -- a stage of the executor, or a write of another task to the other tables
  | service (step : ServiceStep)
  -- a POST goes out, and the exchange accepts it or not
  | transmit (accepted : Option (String × ServerStatus))
  | reply (reply : HttpReply OrderResponse) (clock : Clock)
  -- a resting order is executed or canceled
  | serverMoves (orderId : String) (status : ServerStatus)
  -- an ingested fill marks its parent order
  | ingested (orderId : String)
  -- the end of `_on_engaged`
  | halted (reason : Option Halt) (n : ℤ)
  | crash (step : ServiceStep)
  | scan
  | listed (page : List ServerOrder)
  | listFailed (e : ClientError)
  | commit
  | finish

def markParent (orderId : String) (orders : List Order) : List Order :=
  orders.map (fun o => if o.kalshiOrderId = some orderId ∧ o.status ∉ ["filled", "cancelled"] then
    { o with status := "filled" } else o)

def Service.sending (s : Service) : Option String :=
  match s.holder with
  | some (.ordering request _) => some request.clientOrderId
  | _ => none

def Service.phaseAfter (s : Service) : ServiceStep → Option (RequestPhase OrderResponse)
  | .reply reply _ =>
    match s.holder with
    | some (.ordering _ (.awaiting attempt lastExc)) => some (.onReply attempt lastExc reply)
    | _ => none
  | .wake _ =>
    match s.holder with
    | some (.ordering _ (.backingOff attempt lastExc)) => some (.onWake attempt lastExc)
    | _ => none
  | _ => none

namespace Restarting

def db (s : Restarting) : Db := s.service.agent.db

def setAgent (s : Restarting) (agent : Agent) : Restarting :=
  { s with service := { s.service with agent := agent } }

def Holds (s : Restarting) (clientOrderId : String) : Prop :=
  ∃ o ∈ s.server, o.clientOrderId = clientOrderId

/-- What the exchange makes of a request: a second order of the same id is not accepted. -/
def accept (server : List ServerOrder) (clientOrderId : String) :
    Option (String × ServerStatus) → List ServerOrder
  | none => server
  | some (orderId, status) =>
    if ∃ o ∈ server, o.clientOrderId = clientOrderId then server
    else server ++ [⟨orderId, clientOrderId, status⟩]

/-- A success names the order that the exchange holds under the id it was sent with. -/
def truthful (s : Restarting) : HttpReply OrderResponse → Bool
  | .response statusCode _ _ (.ok response) => 400 ≤ statusCode ∨ s.server.any (fun o =>
    s.service.sending = some o.clientOrderId ∧ response.orderId = o.orderId ∧
      response.status ∈ ["resting", "executed", "canceled"])
  | _ => true

def agrees (s : Restarting) (page : List ServerOrder) (status : ServerStatus) : Bool :=
  page.all (fun o => o ∈ s.server ∧ o.status = status)

/-- A stage of the executor, or a write of another task to the other tables. -/
def admits (s : Restarting) : ServiceStep → Bool
  | .others agent => agent.db.orders = s.db.orders
  | .enter _ _ => true
  | .market _ _ => true
  | .bankroll _ _ _ _ => true
  | .wake _ => true
  | _ => false

end Restarting

def ServiceStep.kills : ServiceStep → Bool
  | .bankrollCrash _ _ _ _ => true
  | .crash => true
  | _ => false

def restartStep (cfg : Config) (s : Restarting) : RestartStep → Option Restarting
  | .service step =>
    if s.admits step then
      (serviceStep cfg s.service step).map (fun service => { s with service := service })
    else none
  | .transmit accepted =>
    match s.service.sending with
    | none => none
    | some clientOrderId => (serviceStep cfg s.service .token).map (fun service =>
        { s with service := service, server := Restarting.accept s.server clientOrderId accepted })
  | .reply reply clock =>
    if s.truthful reply then
      (serviceStep cfg s.service (.reply reply clock)).map (fun service =>
        { s with service := service })
    else none
  | .serverMoves orderId status =>
    some { s with server := s.server.map (fun o =>
      if o.orderId = orderId ∧ o.status = .resting then { o with status := status } else o) }
  | .ingested orderId =>
    some (s.setAgent { s.service.agent with
      db := { s.db with orders := markParent orderId s.db.orders } })
  | .halted reason n => some (s.setAgent { s.service.agent with db := onEngaged s.db reason n })
  | .crash step =>
    if step.kills then
      (serviceStep cfg s.service step).map (fun service =>
        { s with service := service, recovery := .waiting })
    else none
  | .scan =>
    match s.recovery with
    | .waiting => some { s with recovery := .start s.db }
    | _ => none
  | .listed page =>
    match s.recovery with
    | .listing items (status :: todo) remote =>
      if s.agrees page status then
        some { s with recovery := .listed items (status :: todo) remote page }
      else none
    | _ => none
  | .listFailed e =>
    match s.recovery with
    | .listing items _ _ => some { s with recovery := .ended ⟨items.length, 0, 0, some e.text⟩ }
    | _ => none
  | .commit =>
    match s.recovery with
    | .committing (item :: items) remote summary =>
      let (agent, summary) := recoverOrder s.service.agent remote summary item
      some { s.setAgent agent with recovery := .committing items remote summary }
    | _ => none
  | .finish =>
    match s.recovery with
    | .committing [] _ summary => some { s with recovery := .ended summary }
    | _ => none

/-- What the last commit of a recovery leaves behind: every order the exchange holds has its row
with its id there, and none of them is in a row given up. -/
structure Restored (s : Restarting) : Prop where
  carried : ∀ o ∈ s.server, ∃ row ∈ s.db.orders,
    row.clientOrderId = o.clientOrderId ∧ row.kalshiOrderId = some o.orderId
  notGivenUp : ∀ row ∈ s.db.orders, row.status = "lost" ∨ row.status = "send_failed" →
    ¬ s.Holds row.clientOrderId

/-- Whenever a recovery has written its last row. -/
def RestartSafe (s : Restarting) : Prop :=
  ∀ remote summary, s.recovery = .committing [] remote summary → Restored s

/-- No outcome of `create_order` is written down wrongly: an order that the exchange holds is not
recorded as failed, and an exception that escapes leaves its row pending. -/
def Restarting.EndsWell (s : Restarting) (clientOrderId : String) :
    RequestPhase OrderResponse → Prop
  | .finished (.ok _) => True
  | .finished (.error (.other _)) => s.Holds clientOrderId →
    ∀ row ∈ s.db.orders, row.clientOrderId = clientOrderId → row.status = "pending"
  | .finished (.error _) => ¬ s.Holds clientOrderId
  | _ => True

/-- No create_order call ends, at this reply or wake, with an outcome written down wrongly. -/
def Restarting.Answers (s : Restarting) (step : ServiceStep) : Prop :=
  match s.service.sending, s.service.phaseAfter step with
  | some id, some phase => s.EndsWell id phase
  | _, _ => True

def Restarting.LeftPending (s : Restarting) : Prop :=
  match s.service.sending with
  | some id => s.Holds id → ∀ row ∈ s.db.orders, row.clientOrderId = id → row.status = "pending"
  | none => True

def Restarting.PageComplete (s : Restarting) (page : List ServerOrder) : Prop :=
  match s.recovery with
  | .listing _ (status :: _) _ => ∀ o ∈ s.server, o.status = status → o ∈ page
  | _ => True

def Recovery.Idle : Recovery → Prop
  | .waiting => True
  | .ended _ => True
  | _ => False

/-- The condition on the steps of a run. -/
def RestartGuard (s : Restarting) : RestartStep → Prop
  -- create_order raises no error of the client for an order that the exchange holds
  | .service step => s.Answers step
  | .reply reply clock => s.Answers (.reply reply clock)
  -- a crash finds the row of an order that the exchange holds pending
  | .crash _ => s.LeftPending
  -- a halt finds no row that only a recovery could still complete
  | .halted _ _ => ∀ o ∈ s.server, (∃ row ∈ s.db.orders,
    row.clientOrderId = o.clientOrderId ∧ row.kalshiOrderId = some o.orderId) ∨
      s.service.sending = some o.clientOrderId
  -- a recovery runs while no order is being sent, and its pages are complete
  | .transmit _ => s.recovery.Idle
  | .scan => s.service.sending = none
  | .listed page => s.PageComplete page
  | _ => True

section Decidable
variable (s : Restarting)

instance (id : String) : Decidable (s.Holds id) :=
  inferInstanceAs (Decidable (∃ o ∈ s.server, o.clientOrderId = id))

instance (id : String) : (phase : RequestPhase OrderResponse) → Decidable (s.EndsWell id phase)
  | .finished (.ok _) => isTrue trivial
  | .finished (.error (.other _)) => inferInstanceAs (Decidable (s.Holds id → _))
  | .finished (.error (.api _ _)) => inferInstanceAs (Decidable (¬ s.Holds id))
  | .finished (.error (.auth _)) => inferInstanceAs (Decidable (¬ s.Holds id))
  | .acquiring _ _ => isTrue trivial
  | .awaiting _ _ => isTrue trivial
  | .backingOff _ _ => isTrue trivial
  | .asleep _ => isTrue trivial

instance (step : ServiceStep) : Decidable (s.Answers step) := by
  unfold Restarting.Answers
  split <;> infer_instance

instance : Decidable s.LeftPending := by
  unfold Restarting.LeftPending
  split <;> infer_instance

instance (page : List ServerOrder) : Decidable (s.PageComplete page) := by
  unfold Restarting.PageComplete
  split <;> infer_instance

instance : (recovery : Recovery) → Decidable recovery.Idle
  | .waiting => isTrue trivial
  | .ended _ => isTrue trivial
  | .listing _ _ _ => isFalse id
  | .committing _ _ _ => isFalse id

instance (step : RestartStep) : Decidable (RestartGuard s step) := by
  unfold RestartGuard
  split <;> infer_instance

end Decidable

section Views
variable {cfg : Config} {t t' : Service}

inductive OrdersView (t t' : Service) (step : ServiceStep) : Prop
  | idle (horders : t'.agent.db.orders = t.agent.db.orders) (hminted : t'.minted = t.minted)
      (hsending : t'.sending = t.sending)
  | places (row : Order) (horders : t'.agent.db.orders = t.agent.db.orders ++ [row])
      (hstatus : row.status = "pending") (hkid : row.kalshiOrderId = none)
      (hfresh : row.clientOrderId ∉ t.minted) (hminted : t'.minted = t.minted ++ [row.clientOrderId])
      (hidle : t.sending = none) (hsending : t'.sending = some row.clientOrderId)
  | ends (id : String) (outcome : Except ClientError OrderResponse) (cfg : Config) (clock : Clock)
      (hsending : t.sending = some id) (hover : t'.sending = none)
      (hphase : t.phaseAfter step = some (.finished outcome)) (hminted : t'.minted = t.minted)
      (horders : t'.agent.db.orders = (recordOutcome cfg t.agent id outcome clock).db.orders)

theorem sending_ordering {request : OrderRequest} {phase : RequestPhase OrderResponse}
    (h : t.holder = some (.ordering request phase)) : t.sending = some request.clientOrderId := by
  rw [Service.sending, h]

theorem setPhase_orders {step : ServiceStep} {request : OrderRequest}
    {phase next : RequestPhase OrderResponse} (hholder : t.holder = some (.ordering request phase))
    (hnext : t.phaseAfter step = some next) (clock : Clock) :
    OrdersView t (t.setPhase cfg request clock next) step := by
  have hsending := sending_ordering hholder
  cases next with
  | finished outcome => exact .ends _ outcome cfg clock hsending rfl hnext rfl rfl
  | acquiring attempt lastExc | awaiting attempt lastExc | backingOff attempt lastExc
    | asleep attempt => exact .idle rfl rfl (Eq.trans rfl hsending.symm)

theorem serviceStep_orders {step : ServiceStep} (h : serviceStep cfg t step = some t')
    (hstep : step.kills = false) (hothers : ∀ agent, step = .others agent →
      agent.db.orders = t.agent.db.orders) : OrdersView t t' step := by
  cases serviceStep_rule h with
  | others agent hkeeps => exact .idle (hothers agent rfl) rfl rfl
  | enter signal now hholder =>
    refine .idle (preflight_logs t.agent signal now).orders rfl ?_
    simp only [Service.sending, hholder]
    cases (preflight t.agent signal now).2 <;> rfl
  | market signal fetched clock hholder =>
    refine .idle (quoteMarket_logs cfg t.agent signal fetched clock).orders rfl ?_
    simp only [Service.sending, hholder]
    cases (quoteMarket cfg t.agent signal fetched clock).2 <;> rfl
  | rejects signal currentPrice category fetched clock later clientOrderId agent hholder happrove =>
    have hidle : t.sending = none := by rw [Service.sending, hholder]
    exact .idle (approve_none_logs happrove).orders rfl hidle.symm
  | places signal currentPrice category fetched clock later clientOrderId agent request hholder
      hfresh happrove =>
    have hidle : t.sending = none := by rw [Service.sending, hholder]
    obtain ⟨_, _, _, _, _, hplaced⟩ := approve_some happrove
    cases hplaced
    exact .places _ rfl rfl rfl hfresh rfl hidle rfl
  | bankrollCrash signal fetched clock later clientOrderId => cases hstep
  | token request attempt lastExc hholder => exact .idle rfl rfl (sending_ordering hholder).symm
  | reply request attempt lastExc reply clock hholder =>
    exact setPhase_orders hholder (by rw [Service.phaseAfter, hholder]) clock
  | wake request attempt lastExc clock hholder =>
    exact setPhase_orders hholder (by rw [Service.phaseAfter, hholder]) clock
  | crash => cases hstep

theorem serviceStep_kills {step : ServiceStep} (h : serviceStep cfg t step = some t')
    (hstep : step.kills = true) : t'.agent.db.orders = t.agent.db.orders ∧ t'.minted = t.minted ∧
      t'.sending = none := by
  cases serviceStep_rule h with
  | bankrollCrash signal fetched clock later clientOrderId => exact ⟨rfl, rfl, rfl⟩
  | crash => exact ⟨rfl, rfl, rfl⟩
  | others | enter | market | rejects | places | token | reply | wake => cases hstep

end Views

section Rules
variable {cfg : Config} {s s' : Restarting}

structure Staged (cfg : Config) (s : Restarting) (step : ServiceStep) (service : Service) : Prop where
  runs : serviceStep cfg s.service step = some service
  survives : step.kills = false
  others : ∀ agent, step = .others agent → agent.db.orders = s.db.orders
  truthful : ∀ reply clock, step = .reply reply clock → s.truthful reply = true

inductive RestartRule (cfg : Config) (s : Restarting) : RestartStep → Restarting → Prop
  | service (step : ServiceStep) (service : Service) (hstage : Staged cfg s step service) :
      RestartRule cfg s (.service step) { s with service := service }
  | transmit (accepted : Option (String × ServerStatus)) (clientOrderId : String) (service : Service)
      (hflight : s.service.sending = some clientOrderId)
      (hservice : serviceStep cfg s.service .token = some service) :
      RestartRule cfg s (.transmit accepted)
        { s with service := service, server := Restarting.accept s.server clientOrderId accepted }
  | reply (reply : HttpReply OrderResponse) (clock : Clock) (service : Service)
      (hstage : Staged cfg s (.reply reply clock) service) :
      RestartRule cfg s (.reply reply clock) { s with service := service }
  | serverMoves (orderId : String) (status : ServerStatus) :
      RestartRule cfg s (.serverMoves orderId status)
        { s with server := s.server.map (fun o =>
          if o.orderId = orderId ∧ o.status = .resting then { o with status := status } else o) }
  | ingested (orderId : String) :
      RestartRule cfg s (.ingested orderId) (s.setAgent { s.service.agent with
        db := { s.db with orders := markParent orderId s.db.orders } })
  | halted (reason : Option Halt) (n : ℤ) :
      RestartRule cfg s (.halted reason n)
        (s.setAgent { s.service.agent with db := onEngaged s.db reason n })
  | crash (step : ServiceStep) (service : Service) (hkills : step.kills = true)
      (hservice : serviceStep cfg s.service step = some service) :
      RestartRule cfg s (.crash step) { s with service := service, recovery := .waiting }
  | scan (hphase : s.recovery = .waiting) :
      RestartRule cfg s .scan { s with recovery := .start s.db }
  | listed (page : List ServerOrder) (items : List InFlight) (status : ServerStatus)
      (todo : List ServerStatus) (remote : List ServerOrder)
      (hphase : s.recovery = .listing items (status :: todo) remote)
      (hagrees : s.agrees page status = true) :
      RestartRule cfg s (.listed page)
        { s with recovery := .listed items (status :: todo) remote page }
  | listFailed (e : ClientError) (items : List InFlight) (todo : List ServerStatus)
      (remote : List ServerOrder) (hphase : s.recovery = .listing items todo remote) :
      RestartRule cfg s (.listFailed e)
        { s with recovery := .ended ⟨items.length, 0, 0, some e.text⟩ }
  | commit (item : InFlight) (items : List InFlight) (remote : List ServerOrder)
      (summary : RecoverySummary) (hphase : s.recovery = .committing (item :: items) remote summary) :
      RestartRule cfg s .commit
        { s.setAgent (recoverOrder s.service.agent remote summary item).1 with
          recovery := .committing items remote
            (recoverOrder s.service.agent remote summary item).2 }
  | finish (remote : List ServerOrder) (summary : RecoverySummary)
      (hphase : s.recovery = .committing [] remote summary) :
      RestartRule cfg s .finish { s with recovery := .ended summary }

theorem restartStep_rule {step : RestartStep} (h : restartStep cfg s step = some s') :
    RestartRule cfg s step s' := by
  cases step with
  | service step =>
    simp only [restartStep] at h
    split_ifs at h with hadmits
    obtain ⟨service, hservice, rfl⟩ := Option.map_eq_some_iff.mp h
    refine .service step service ⟨hservice, ?_, ?_, ?_⟩
    · cases step <;> first | rfl | cases hadmits
    · rintro agent rfl
      exact of_decide_eq_true hadmits
    · rintro reply clock rfl
      cases hadmits
  | transmit accepted =>
    simp only [restartStep] at h
    split at h
    · cases h
    · next clientOrderId hflight =>
      obtain ⟨service, hservice, rfl⟩ := Option.map_eq_some_iff.mp h
      exact .transmit accepted clientOrderId service hflight hservice
  | reply reply clock =>
    simp only [restartStep] at h
    split_ifs at h with htruthful
    obtain ⟨service, hservice, rfl⟩ := Option.map_eq_some_iff.mp h
    refine .reply reply clock service ⟨hservice, rfl, ?_, ?_⟩
    · intro agent heq
      cases heq
    · intro reply' clock' heq
      cases heq
      exact htruthful
  | serverMoves orderId status =>
    cases h
    exact .serverMoves orderId status
  | ingested orderId =>
    cases h
    exact .ingested orderId
  | halted reason n =>
    cases h
    exact .halted reason n
  | crash step =>
    simp only [restartStep] at h
    split_ifs at h with hkills
    obtain ⟨service, hservice, rfl⟩ := Option.map_eq_some_iff.mp h
    exact .crash step service hkills hservice
  | scan =>
    simp only [restartStep] at h
    split at h
    · next hphase =>
      cases h
      exact .scan hphase
    · cases h
  | listed page =>
    simp only [restartStep] at h
    split at h
    · next items status todo remote hphase =>
      split_ifs at h with hagrees
      cases h
      exact .listed page items status todo remote hphase hagrees
    · cases h
  | listFailed e =>
    simp only [restartStep] at h
    split at h
    · next items todo remote hphase =>
      cases h
      exact .listFailed e items todo remote hphase
    · cases h
  | commit =>
    simp only [restartStep] at h
    split at h
    · next item items remote summary hphase =>
      cases h
      exact .commit item items remote summary hphase
    · cases h
  | finish =>
    simp only [restartStep] at h
    split at h
    · next remote summary hphase =>
      cases h
      exact .finish remote summary hphase
    · cases h

end Rules

end KalshiAgent
