import KalshiAgent.Bankroll
import KalshiAgent.Execution.Halting

/-! One call of `handle_signal` from beginning to end, and the audit row it leaves. The other
tasks run while the call waits: they insert no decision and no order, and of an order they write
its status, its exchange id and its raw response alone. -/

namespace KalshiAgent

/-- The columns of an order that the executor writes and no task changes. -/
structure OrderTerms where
  clientOrderId : String
  marketTicker : Ticker
  side : Side
  action : Action
  count : ℤ
  priceDollars : Dollars4
  decisionId : Option ℕ
  deriving DecidableEq

def Order.terms (o : Order) : OrderTerms :=
  ⟨o.clientOrderId, o.marketTicker, o.side, o.action, o.count, o.priceDollars, o.decisionId⟩

def Db.terms (db : Db) : List OrderTerms := db.orders.map Order.terms

def Db.KeepsAudit (db db' : Db) : Prop :=
  db'.decisions = db.decisions ∧ db'.terms = db.terms

instance (db db' : Db) : Decidable (db.KeepsAudit db') :=
  inferInstanceAs (Decidable (_ ∧ _))

/-- What the other tasks do during an await of the call. -/
structure Meanwhile where
  run : Agent → Agent
  keepsAudit : ∀ agent : Agent, agent.db.KeepsAudit (run agent).db

def Meanwhile.nothing : Meanwhile := ⟨id, fun _ => ⟨rfl, rfl⟩⟩

/-- What one call meets: its clocks, the outcomes of its awaits, and the other tasks. -/
structure Awaits where
  entered : Time
  market : Except ClientError Market
  duringMarket : Meanwhile
  marketClock : Clock
  bank : Bankroll
  bankHeld : Bankroll
  balance : Except ClientError DecimalText
  balanceAt : ℚ
  duringBalance : Meanwhile
  checked : Clock
  placed : Clock
  clientOrderId : String
  response : Except ClientError OrderResponse
  duringOrder : Meanwhile
  answered : Clock

def Awaits.bankroll (env : Awaits) : Except ClientError ℚ :=
  (env.bank.get env.bankHeld env.marketClock.monotonic env.balance env.balanceAt).2

def handleSignal (cfg : Config) (agent : Agent) (signal : Signal) (env : Awaits) : Agent :=
  match preflight agent signal env.entered with
  | (agent, none) => agent
  | (agent, some ()) =>
    let agent := env.duringMarket.run agent
    match quoteMarket cfg agent signal env.market env.marketClock with
    | (agent, none) => agent
    | (agent, some (currentPrice, category)) =>
      let agent := env.duringBalance.run agent
      match approve cfg agent signal currentPrice category env.bankroll env.checked env.placed
          env.clientOrderId with
      | (agent, none) => agent
      | (agent, some request) =>
        recordOutcome cfg (env.duringOrder.run agent) request.clientOrderId env.response env.answered

structure Decision.IsOf (row : Decision) (signal : Signal) : Prop where
  strategy : row.strategy = signal.strategyName
  marketTicker : row.marketTicker = signal.marketTicker
  side : row.side = signal.side
  modelProbability : row.modelProbability = signal.modelProbability
  confidence : row.confidence = signal.confidence
  rationale : row.rationale = signal.rationale
  validUntil : row.validUntil = signal.validUntil

def Rejected (signal : Signal) (db db' : Db) : Prop :=
  ∃ row : Decision, db'.decisions = db.decisions ++ [row] ∧ row.IsOf signal ∧
    row.accepted = false ∧ db'.terms = db.terms

def Accepted (signal : Signal) (clientOrderId : String) (db db' : Db) : Prop :=
  ∃ (row : Decision) (order : OrderTerms), db'.decisions = db.decisions ++ [row] ∧
    row.IsOf signal ∧ row.accepted = true ∧ row.orderId = some clientOrderId ∧
    order.clientOrderId = clientOrderId ∧ db'.terms = db.terms ++ [order]

/-- Exactly one decision is new; it is of the signal, and accepted exactly with a new order. -/
def Audited (signal : Signal) (clientOrderId : String) (db db' : Db) : Prop :=
  Rejected signal db db' ∨ Accepted signal clientOrderId db db'

def Market.Open (market : Market) : Prop := (market.status.getD "").toLower ∈ ["active", "open"]

def Quotes (signal : Signal) (fetched : Except ClientError Market) : Prop :=
  ∃ market ask, fetched = .ok market ∧ market.Open ∧ truthy (market.ask signal.side) = some ask

/-- The call ends in no exception that nothing catches: `get_market` fails with an exception of
the client if at all, a price it quotes is a number, and the balance, where it is fetched, is
known. -/
structure Answered (signal : Signal) (env : Awaits) : Prop where
  market : ∀ message, env.market ≠ .error (.other message)
  price : ∀ market ask, env.market = .ok market → market.Open →
    truthy (market.ask signal.side) = some ask → priceStrToDecimal ask ≠ none
  balance : Quotes signal env.market →
    env.bank.fresh env.marketClock.monotonic ≠ none ∨ BalanceKnown env.balance

section
variable {cfg : Config} {agent agent' : Agent} {signal : Signal} {clientOrderId : String}
  {db db₁ db' : Db}

theorem Db.KeepsAudit.trans (h : db.KeepsAudit db₁) (h' : db₁.KeepsAudit db') :
    db.KeepsAudit db' :=
  ⟨h'.1.trans h.1, h'.2.trans h.2⟩

theorem Audited.after (hkeeps : db.KeepsAudit db₁) (h : Audited signal clientOrderId db₁ db') :
    Audited signal clientOrderId db db' := by
  simpa only [Audited, Rejected, Accepted, hkeeps.1, hkeeps.2] using h

theorem Audited.before (h : Audited signal clientOrderId db db₁) (hkeeps : db₁.KeepsAudit db') :
    Audited signal clientOrderId db db' := by
  simpa only [Audited, Rejected, Accepted, hkeeps.1, hkeeps.2] using h

theorem not_audited_of_keeps (h : db.decisions = db'.decisions) :
    ¬ Audited signal clientOrderId db db' := by
  rintro (⟨row, hnew, _⟩ | ⟨row, order, hnew, _⟩)
  · exact absurd (h.trans hnew) (by simp)
  · exact absurd (h.trans hnew) (by simp)

theorem reject_rejected (agent : Agent) (signal : Signal) (reason : String) (now : Time) :
    Rejected signal agent.db (agent.reject signal reason now).db :=
  ⟨_, rfl, ⟨rfl, rfl, rfl, rfl, rfl, rfl, rfl⟩, rfl, rfl⟩

theorem placeOrder_accepted {request : OrderRequest} {currentPrice : ℚ} {contracts : ℤ}
    {clock : Clock}
    (h : (agent', request) = placeOrder agent signal currentPrice contracts clientOrderId clock) :
    Accepted signal clientOrderId agent.db agent'.db := by
  cases h
  refine ⟨_, _, rfl, ⟨rfl, rfl, rfl, rfl, rfl, rfl, rfl⟩, rfl, rfl, ?_, List.map_append⟩
  rfl

theorem updateOrder_keeps (agent : Agent) (id : String) (change : Order → Order)
    (hchange : ∀ o, (change o).terms = o.terms) :
    agent.db.KeepsAudit (agent.updateOrder id change).db := by
  refine ⟨rfl, ?_⟩
  unfold Db.terms Agent.updateOrder
  rw [List.map_map]
  refine List.map_congr_left fun o _ => ?_
  simp only [Function.comp_apply]
  split_ifs
  · exact hchange o
  · rfl

theorem recordOutcome_keeps (cfg : Config) (agent : Agent) (id : String)
    (outcome : Except ClientError OrderResponse) (clock : Clock) :
    agent.db.KeepsAudit (recordOutcome cfg agent id outcome clock).db := by
  unfold recordOutcome
  cases outcome with
  | ok response => exact updateOrder_keeps agent _ _ (fun _ => rfl)
  | error e =>
    cases e with
    | api statusCode body =>
      exact updateOrder_keeps (agent.recordError cfg clock) _ _ (fun _ => rfl)
    | auth message => exact updateOrder_keeps (agent.recordError cfg clock) _ _ (fun _ => rfl)
    | other message => exact ⟨rfl, rfl⟩

theorem quoteMarket_cases (cfg : Config) (agent : Agent) (signal : Signal)
    (fetched : Except ClientError Market) (clock : Clock) :
    (∃ message, fetched = .error (.other message) ∧
        quoteMarket cfg agent signal fetched clock = (agent, none)) ∨
      ((∀ message, fetched ≠ .error (.other message)) ∧ ¬ Quotes signal fetched ∧
        ∃ agent', quoteMarket cfg agent signal fetched clock = (agent', none) ∧
          Rejected signal agent.db agent'.db) ∨
      ∃ market ask, fetched = .ok market ∧ market.Open ∧
        truthy (market.ask signal.side) = some ask ∧
        quoteMarket cfg agent signal fetched clock =
          (agent, (priceStrToDecimal ask).map (fun price => (price, market.category))) := by
  unfold quoteMarket
  cases fetched with
  | error e =>
    cases e with
    | api statusCode body =>
      exact .inr (.inl ⟨nofun, nofun, _, rfl, reject_rejected (agent.recordError cfg clock) _ _ _⟩)
    | auth message =>
      exact .inr (.inl ⟨nofun, nofun, _, rfl, reject_rejected (agent.recordError cfg clock) _ _ _⟩)
    | other message => exact .inl ⟨message, rfl, rfl⟩
  | ok market =>
    dsimp only
    split_ifs with hclosed
    · cases hask : truthy (market.ask signal.side) with
      | none =>
        refine .inr (.inl ⟨nofun, ?_, _, rfl, reject_rejected agent _ _ _⟩)
        rintro ⟨market', ask, hmarket, _, hsome⟩
        cases hmarket
        exact absurd (hask.symm.trans hsome) (Option.some_ne_none ask).symm
      | some ask =>
        refine .inr (.inr ⟨market, ask, rfl, hclosed, hask, ?_⟩)
        dsimp only
        cases priceStrToDecimal ask <;> rfl
    · refine .inr (.inl ⟨nofun, ?_, _, rfl, reject_rejected agent _ _ _⟩)
      rintro ⟨market', ask, hmarket, hopen, _⟩
      cases hmarket
      exact hclosed hopen

theorem approve_none_rejected {currentPrice : ℚ} {category : Option String} {bankroll : ℚ}
    {clock later : Clock}
    (h : approve cfg agent signal currentPrice category (.ok bankroll) clock later clientOrderId =
      (agent', none)) : Rejected signal agent.db agent'.db := by
  unfold approve at h
  dsimp only at h
  split_ifs at h with hzero hallowed hexpired
  · cases h
    exact reject_rejected agent _ _ _
  · cases h
    exact reject_rejected agent _ _ _
  · cases h
  · cases h
    exact reject_rejected agent _ _ _

theorem approve_audited {currentPrice : ℚ} {category : Option String} {bankroll : ℚ}
    {clock later : Clock} {next : Option OrderRequest}
    (h : approve cfg agent signal currentPrice category (.ok bankroll) clock later clientOrderId =
      (agent', next)) : Audited signal clientOrderId agent.db agent'.db := by
  cases next with
  | none => exact .inl (approve_none_rejected h)
  | some request =>
    obtain ⟨_, _, _, _, _, hplaced⟩ := approve_some h
    exact .inr (placeOrder_accepted hplaced)

/-- One call leaves exactly one decision of its signal, accepted exactly with an order, if and
only if no exception escapes its awaits. -/
theorem handleSignal_audited_iff (cfg : Config) (agent : Agent) (signal : Signal) (env : Awaits) :
    Audited signal env.clientOrderId agent.db (handleSignal cfg agent signal env).db ↔
      (signal.isExpired env.entered = false → Answered signal env) := by
  unfold handleSignal preflight
  cases hexpired : signal.isExpired env.entered with
  | true =>
    exact iff_of_true (.inl (reject_rejected agent signal _ _))
      (fun h => absurd h Bool.false_ne_true.symm)
  | false =>
    simp only [Bool.false_eq_true, if_false, forall_const]
    obtain ⟨message, hmarket, hquote⟩ | ⟨hnever, hnone, agent', hquote, hrejected⟩ |
        ⟨market, ask, hmarket, hopen, hask, hquote⟩ :=
      quoteMarket_cases cfg (env.duringMarket.run agent) signal env.market env.marketClock
    · rw [hquote]
      refine iff_of_false ?_ (fun h => h.market message hmarket)
      exact not_audited_of_keeps (env.duringMarket.keepsAudit agent).1.symm
    · rw [hquote]
      refine iff_of_true (.after (env.duringMarket.keepsAudit agent) (.inl hrejected))
        ⟨hnever, ?_, ?_⟩
      · exact fun market ask hmarket hopen hask => absurd ⟨market, ask, hmarket, hopen, hask⟩ hnone
      · exact fun hquotes => absurd hquotes hnone
    · rw [hquote]
      cases hread : priceStrToDecimal ask with
      | none =>
        refine iff_of_false ?_ (fun h => h.price market ask hmarket hopen hask hread)
        exact not_audited_of_keeps (env.duringMarket.keepsAudit agent).1.symm
      | some currentPrice =>
        have hkeeps : agent.db.KeepsAudit (env.duringBalance.run (env.duringMarket.run agent)).db :=
          (env.duringMarket.keepsAudit agent).trans (env.duringBalance.keepsAudit _)
        have hbank := env.bank.get_isOk_iff env.bankHeld env.marketClock.monotonic env.balance
          env.balanceAt
        simp only [Option.map_some]
        change Audited _ _ _ (Agent.db (match approve cfg _ signal currentPrice market.category
          env.bankroll env.checked env.placed env.clientOrderId with
          | (agent, none) => agent
          | (agent, some request) => recordOutcome cfg (env.duringOrder.run agent)
              request.clientOrderId env.response env.answered)) ↔ _
        cases hfetched : env.bankroll with
        | error e =>
          refine iff_of_false (not_audited_of_keeps hkeeps.1.symm) (fun h => ?_)
          obtain ⟨dollars, hok⟩ := hbank.mpr (h.balance ⟨market, ask, hmarket, hopen, hask⟩)
          cases hfetched.symm.trans hok
        | ok bankroll =>
          have hanswered : Answered signal env := by
            refine ⟨fun message h => ?_, fun market' ask' h _ hask' => ?_, fun _ => ?_⟩
            · cases hmarket.symm.trans h
            · cases hmarket.symm.trans h
              cases hask.symm.trans hask'
              exact hread ▸ Option.some_ne_none currentPrice
            · exact hbank.mp ⟨bankroll, hfetched⟩
          refine iff_of_true ?_ hanswered
          obtain ⟨⟨agent', next⟩, happrove⟩ : ∃ r, approve cfg
            (env.duringBalance.run (env.duringMarket.run agent)) signal currentPrice market.category
            (.ok bankroll) env.checked env.placed env.clientOrderId = r := ⟨_, rfl⟩
          have haudited := (approve_audited happrove).after hkeeps
          rw [happrove]
          cases next with
          | none => exact haudited
          | some request =>
            exact haudited.before ((env.duringOrder.keepsAudit agent').trans
              (recordOutcome_keeps cfg _ _ _ _))

/-- The ways a call can go, by the stage that ends it. -/
inductive SignalView (cfg : Config) (agent : Agent) (signal : Signal) (env : Awaits) : Agent → Prop
  | expired {entered : Agent} (hentry : preflight agent signal env.entered = (entered, none)) :
      SignalView cfg agent signal env entered
  | unquoted {entered quoted : Agent}
      (hentry : preflight agent signal env.entered = (entered, some ()))
      (hquote : quoteMarket cfg (env.duringMarket.run entered) signal env.market env.marketClock =
        (quoted, none)) :
      SignalView cfg agent signal env quoted
  | unsent {entered quoted approved : Agent} {currentPrice : ℚ} {category : Option String}
      (hentry : preflight agent signal env.entered = (entered, some ()))
      (hquote : quoteMarket cfg (env.duringMarket.run entered) signal env.market env.marketClock =
        (quoted, some (currentPrice, category)))
      (happrove : approve cfg (env.duringBalance.run quoted) signal currentPrice category
        env.bankroll env.checked env.placed env.clientOrderId = (approved, none)) :
      SignalView cfg agent signal env approved
  | sent {entered quoted approved : Agent} {currentPrice : ℚ} {category : Option String}
      {request : OrderRequest}
      (hentry : preflight agent signal env.entered = (entered, some ()))
      (hquote : quoteMarket cfg (env.duringMarket.run entered) signal env.market env.marketClock =
        (quoted, some (currentPrice, category)))
      (happrove : approve cfg (env.duringBalance.run quoted) signal currentPrice category
        env.bankroll env.checked env.placed env.clientOrderId = (approved, some request)) :
      SignalView cfg agent signal env (recordOutcome cfg (env.duringOrder.run approved)
        request.clientOrderId env.response env.answered)

theorem handleSignal_view (cfg : Config) (agent : Agent) (signal : Signal) (env : Awaits) :
    SignalView cfg agent signal env (handleSignal cfg agent signal env) := by
  unfold handleSignal
  rcases hentry : preflight agent signal env.entered with ⟨entered, _ | _⟩
  · exact .expired hentry
  dsimp only
  rcases hquote : quoteMarket cfg (env.duringMarket.run entered) signal env.market env.marketClock
    with ⟨quoted, _ | ⟨currentPrice, category⟩⟩
  · exact .unquoted hentry hquote
  dsimp only
  rcases happrove : approve cfg (env.duringBalance.run quoted) signal currentPrice category
    env.bankroll env.checked env.placed env.clientOrderId with ⟨approved, _ | request⟩
  · exact .unsent hentry hquote happrove
  · exact .sent hentry hquote happrove

def Awaits.clocks (env : Awaits) : List Time :=
  [env.entered, env.marketClock.now, env.checked.now, env.placed.now]

def Db.LogsAt (times : List Time) (db db' : Db) : Prop :=
  ∃ rows, db'.decisions = db.decisions ++ rows ∧ ∀ row ∈ rows, row.createdAt ∈ times

section Dates
variable {times : List Time}

theorem Db.LogsAt.of_same (h : db'.decisions = db.decisions) : db.LogsAt times db' :=
  ⟨[], h.trans (List.append_nil _).symm, List.forall_mem_nil _⟩

theorem Db.LogsAt.trans (h : db.LogsAt times db₁) (h' : db₁.LogsAt times db') :
    db.LogsAt times db' := by
  obtain ⟨rows, hrows, hdated⟩ := h
  obtain ⟨later, hlater, hdated'⟩ := h'
  refine ⟨rows ++ later, ?_, List.forall_mem_append.mpr ⟨hdated, hdated'⟩⟩
  rw [hlater, hrows, List.append_assoc]

theorem persistDecision_logsAt (agent : Agent) (signal : Signal) (accepted : Bool)
    (reason orderId : Option String) {now : Time} (h : now ∈ times) :
    agent.db.LogsAt times (agent.persistDecision signal accepted reason orderId now).db :=
  ⟨_, rfl, List.forall_mem_singleton.mpr h⟩

theorem preflight_logsAt (agent : Agent) (signal : Signal) {now : Time} (h : now ∈ times) :
    agent.db.LogsAt times (preflight agent signal now).1.db := by
  unfold preflight
  split_ifs
  · exact persistDecision_logsAt agent signal _ _ _ h
  · exact .of_same rfl

theorem quoteMarket_logsAt (cfg : Config) (agent : Agent) (signal : Signal)
    (fetched : Except ClientError Market) {clock : Clock} (h : clock.now ∈ times) :
    agent.db.LogsAt times (quoteMarket cfg agent signal fetched clock).1.db := by
  unfold quoteMarket
  cases fetched with
  | error e =>
    cases e with
    | other message => exact .of_same rfl
    | _ => exact persistDecision_logsAt (agent.recordError cfg clock) signal _ _ _ h
  | ok market =>
    dsimp only
    split_ifs
    · cases truthy (market.ask signal.side) with
      | none => exact persistDecision_logsAt agent signal _ _ _ h
      | some ask =>
        dsimp only
        cases priceStrToDecimal ask <;> exact .of_same rfl
    · exact persistDecision_logsAt agent signal _ _ _ h

theorem approve_logsAt {currentPrice : ℚ} {category : Option String}
    {fetched : Except ClientError ℚ} {clock later : Clock} {next : Option OrderRequest}
    (hclock : clock.now ∈ times) (hlater : later.now ∈ times)
    (h : approve cfg agent signal currentPrice category fetched clock later clientOrderId =
      (agent', next)) : agent.db.LogsAt times agent'.db := by
  unfold approve at h
  cases fetched with
  | error e =>
    cases h
    exact .of_same rfl
  | ok bankroll =>
    dsimp only at h
    split_ifs at h
    · cases h
      exact persistDecision_logsAt agent signal _ _ _ hclock
    · cases h
      exact persistDecision_logsAt _ signal _ _ _ hlater
    · cases h
      exact persistDecision_logsAt _ signal _ _ _ hlater
    · cases h
      exact persistDecision_logsAt _ signal _ _ _ hclock

theorem quoted_logsAt {env : Awaits} {entered quoted : Agent} {next : Option Unit}
    {quote : Option (ℚ × Option String)}
    (hentry : preflight agent signal env.entered = (entered, next))
    (hquote : quoteMarket cfg (env.duringMarket.run entered) signal env.market env.marketClock =
      (quoted, quote)) : agent.db.LogsAt env.clocks quoted.db := by
  have hentered : agent.db.LogsAt env.clocks (preflight agent signal env.entered).1.db :=
    preflight_logsAt agent signal (by simp [Awaits.clocks])
  have hwaited : entered.db.LogsAt env.clocks (env.duringMarket.run entered).db :=
    .of_same (env.duringMarket.keepsAudit entered).1
  have hquoted : (env.duringMarket.run entered).db.LogsAt env.clocks (quoteMarket cfg
      (env.duringMarket.run entered) signal env.market env.marketClock).1.db :=
    quoteMarket_logsAt cfg _ signal env.market (by simp [Awaits.clocks])
  rw [hentry] at hentered
  rw [hquote] at hquoted
  exact hentered.trans (hwaited.trans hquoted)

theorem approved_logsAt {env : Awaits} {quoted approved : Agent} {currentPrice : ℚ}
    {category : Option String} {next : Option OrderRequest} (h : agent.db.LogsAt env.clocks quoted.db)
    (happrove : approve cfg (env.duringBalance.run quoted) signal currentPrice category
      env.bankroll env.checked env.placed env.clientOrderId = (approved, next)) :
    agent.db.LogsAt env.clocks approved.db := by
  have hbalance : quoted.db.LogsAt env.clocks (env.duringBalance.run quoted).db :=
    .of_same (env.duringBalance.keepsAudit quoted).1
  have happroved : (env.duringBalance.run quoted).db.LogsAt env.clocks approved.db :=
    approve_logsAt (by simp [Awaits.clocks]) (by simp [Awaits.clocks]) happrove
  exact h.trans (hbalance.trans happroved)

theorem SignalView.logsAt {env : Awaits} (h : SignalView cfg agent signal env agent') :
    agent.db.LogsAt env.clocks agent'.db := by
  cases h with
  | expired hentry =>
    have hentered : agent.db.LogsAt env.clocks (preflight agent signal env.entered).1.db :=
      preflight_logsAt agent signal (by simp [Awaits.clocks])
    rwa [hentry] at hentered
  | unquoted hentry hquote => exact quoted_logsAt hentry hquote
  | unsent hentry hquote happrove => exact approved_logsAt (quoted_logsAt hentry hquote) happrove
  | @sent _ _ approved _ _ request hentry hquote happrove =>
    refine (approved_logsAt (quoted_logsAt hentry hquote) happrove).trans (.of_same ?_)
    have hduring := (env.duringOrder.keepsAudit approved).1
    exact (recordOutcome_keeps cfg (env.duringOrder.run approved) _ _ _).1.trans hduring

end Dates

end

def marketUnreachable : Awaits where
  entered := 0
  market := .error (.other "ConnectTimeout")
  duringMarket := .nothing
  marketClock := ⟨0, 0⟩
  bank := ⟨10, 0, none, 0⟩
  bankHeld := ⟨10, 0, none, 0⟩
  balance := .ok (.decimal 100)
  balanceAt := 0
  duringBalance := .nothing
  checked := ⟨0, 0⟩
  placed := ⟨0, 0⟩
  clientOrderId := "c1"
  response := .ok ⟨"k1", "resting"⟩
  duringOrder := .nothing
  answered := ⟨0, 0⟩

theorem not_audited_marketUnreachable :
    ¬ Audited buySignal "c1" .empty (handleSignal (.example (.fixed 0))
      ⟨.empty, ⟨none⟩, .start⟩ buySignal marketUnreachable).db :=
  not_audited_of_keeps rfl

end KalshiAgent
