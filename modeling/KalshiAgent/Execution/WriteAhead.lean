import KalshiAgent.Execution.Audit

/-! The chain from a transmitted order back to its decision, over every run of the service. An
approved order is committed twice before its first request, the decision first, and the process
may die between any two commits or awaits; what is in memory is lost then, the tables are not. -/

namespace KalshiAgent
open Execution

structure SentOrder where
  call : ℕ
  request : OrderRequest

structure Service where
  agent : Agent
  -- the call that has the lock, and what it waits for
  holder : Option Holder
  -- ghost state
  calls : ℕ
  minted : List String
  sent : List SentOrder

def Service.start (kill : KillSwitch) : Service := ⟨⟨.empty, kill, .start⟩, none, 0, [], []⟩

inductive ServiceStep
  -- every other task, in this process or the next
  | others (agent : Agent)
  | enter (signal : Signal) (now : Time)
  | market (fetched : Except ClientError Market) (clock : Clock)
  | bankroll (fetched : Except ClientError ℚ) (clock later : Clock) (clientOrderId : String)
  -- the process dies between the commits of the decision and of the order
  | bankrollCrash (fetched : Except ClientError ℚ) (clock later : Clock) (clientOrderId : String)
  | token
  | reply (reply : HttpReply OrderResponse) (clock : Clock)
  | wake (clock : Clock)
  | crash

namespace Service

def setPhase (cfg : Config) (s : Service) (request : OrderRequest) (clock : Clock) :
    RequestPhase OrderResponse → Service
  | .finished outcome =>
    { s with
      agent := recordOutcome cfg s.agent request.clientOrderId outcome clock
      holder := none }
  | phase => { s with holder := some (.ordering request phase) }

/-- The tables stay, the monitor's memory and the call do not. -/
def crash (s : Service) : Service :=
  { s with agent := { s.agent with risk := .start }, holder := none }

end Service

def serviceStep (cfg : Config) (s : Service) : ServiceStep → Option Service
  | .others agent => if s.agent.db.KeepsAudit agent.db then some { s with agent := agent } else none
  | .enter signal now =>
    match s.holder with
    | none =>
      let (agent, next) := preflight s.agent signal now
      some { s with
        agent := agent
        holder := next.map (fun _ => .fetchingMarket signal)
        calls := s.calls + 1 }
    | some _ => none
  | .market fetched clock =>
    match s.holder with
    | some (.fetchingMarket signal) =>
      let (agent, next) := quoteMarket cfg s.agent signal fetched clock
      some { s with
        agent := agent
        holder := next.map (fun quote => .fetchingBankroll signal quote.1 quote.2) }
    | _ => none
  | .bankroll fetched clock later clientOrderId =>
    match s.holder with
    | some (.fetchingBankroll signal currentPrice category) =>
      if clientOrderId ∈ s.minted then none
      else
        match approve cfg s.agent signal currentPrice category fetched clock later clientOrderId with
        | (agent, none) => some { s with agent := agent, holder := none }
        | (agent, some request) =>
          some { s with
            agent := agent
            holder := some (.ordering request .start)
            minted := s.minted ++ [clientOrderId] }
    | _ => none
  | .bankrollCrash fetched clock later clientOrderId =>
    match s.holder with
    | some (.fetchingBankroll signal currentPrice category) =>
      match approve cfg s.agent signal currentPrice category fetched clock later clientOrderId with
      | (_, none) => none
      | (_, some _) =>
        some { s with
          agent := s.agent.persistDecision signal true none (some clientOrderId) later.now }.crash
    | _ => none
  | .token =>
    match s.holder with
    | some (.ordering request (.acquiring attempt lastExc)) =>
      some { s with
        holder := some (.ordering request (.awaiting attempt lastExc))
        sent := s.sent ++ [⟨s.calls, request⟩] }
    | _ => none
  | .reply reply clock =>
    match s.holder with
    | some (.ordering request (.awaiting attempt lastExc)) =>
      some (s.setPhase cfg request clock (.onReply attempt lastExc reply))
    | _ => none
  | .wake clock =>
    match s.holder with
    | some (.ordering request (.backingOff attempt lastExc)) =>
      some (s.setPhase cfg request clock (.onWake attempt lastExc))
    | _ => none
  | .crash => some s.crash

inductive ServiceRule (cfg : Config) (s : Service) : ServiceStep → Service → Prop
  | others (agent : Agent) (hkeeps : s.agent.db.KeepsAudit agent.db) :
      ServiceRule cfg s (.others agent) { s with agent := agent }
  | enter (signal : Signal) (now : Time) (hholder : s.holder = none) :
      ServiceRule cfg s (.enter signal now)
        { s with
          agent := (preflight s.agent signal now).1
          holder := (preflight s.agent signal now).2.map (fun _ => .fetchingMarket signal)
          calls := s.calls + 1 }
  | market (signal : Signal) (fetched : Except ClientError Market) (clock : Clock)
      (hholder : s.holder = some (.fetchingMarket signal)) :
      ServiceRule cfg s (.market fetched clock)
        { s with
          agent := (quoteMarket cfg s.agent signal fetched clock).1
          holder := (quoteMarket cfg s.agent signal fetched clock).2.map
            (fun quote => .fetchingBankroll signal quote.1 quote.2) }
  | rejects (signal : Signal) (currentPrice : ℚ) (category : Option String)
      (fetched : Except ClientError ℚ) (clock later : Clock) (clientOrderId : String)
      (agent : Agent) (hholder : s.holder = some (.fetchingBankroll signal currentPrice category))
      (happrove : approve cfg s.agent signal currentPrice category fetched clock later
        clientOrderId = (agent, none)) :
      ServiceRule cfg s (.bankroll fetched clock later clientOrderId)
        { s with agent := agent, holder := none }
  | places (signal : Signal) (currentPrice : ℚ) (category : Option String)
      (fetched : Except ClientError ℚ) (clock later : Clock) (clientOrderId : String)
      (agent : Agent) (request : OrderRequest)
      (hholder : s.holder = some (.fetchingBankroll signal currentPrice category))
      (hfresh : clientOrderId ∉ s.minted)
      (happrove : approve cfg s.agent signal currentPrice category fetched clock later
        clientOrderId = (agent, some request)) :
      ServiceRule cfg s (.bankroll fetched clock later clientOrderId)
        { s with
          agent := agent
          holder := some (.ordering request .start)
          minted := s.minted ++ [clientOrderId] }
  | bankrollCrash (signal : Signal) (fetched : Except ClientError ℚ) (clock later : Clock)
      (clientOrderId : String) :
      ServiceRule cfg s (.bankrollCrash fetched clock later clientOrderId)
        { s with
          agent := s.agent.persistDecision signal true none (some clientOrderId) later.now }.crash
  | token (request : OrderRequest) (attempt : ℕ) (lastExc : Option ClientError)
      (hholder : s.holder = some (.ordering request (.acquiring attempt lastExc))) :
      ServiceRule cfg s .token
        { s with
          holder := some (.ordering request (.awaiting attempt lastExc))
          sent := s.sent ++ [⟨s.calls, request⟩] }
  | reply (request : OrderRequest) (attempt : ℕ) (lastExc : Option ClientError)
      (reply : HttpReply OrderResponse) (clock : Clock)
      (hholder : s.holder = some (.ordering request (.awaiting attempt lastExc))) :
      ServiceRule cfg s (.reply reply clock)
        (s.setPhase cfg request clock (.onReply attempt lastExc reply))
  | wake (request : OrderRequest) (attempt : ℕ) (lastExc : Option ClientError) (clock : Clock)
      (hholder : s.holder = some (.ordering request (.backingOff attempt lastExc))) :
      ServiceRule cfg s (.wake clock) (s.setPhase cfg request clock (.onWake attempt lastExc))
  | crash : ServiceRule cfg s .crash s.crash

theorem serviceStep_rule {cfg : Config} {s s' : Service} {step : ServiceStep}
    (h : serviceStep cfg s step = some s') : ServiceRule cfg s step s' := by
  cases step with
  | others agent =>
    simp only [serviceStep] at h
    split_ifs at h with hkeeps
    cases h
    exact .others agent hkeeps
  | enter signal now =>
    simp only [serviceStep] at h
    split at h
    · next hholder =>
      cases h
      exact .enter signal now hholder
    · cases h
  | market fetched clock =>
    simp only [serviceStep] at h
    split at h
    · next signal hholder =>
      cases h
      exact .market signal fetched clock hholder
    · cases h
  | bankroll fetched clock later clientOrderId =>
    simp only [serviceStep] at h
    split at h
    · next signal currentPrice category hholder =>
      split_ifs at h with hfresh
      split at h
      · next agent happrove =>
        cases h
        exact .rejects signal currentPrice category fetched clock later clientOrderId agent hholder
          happrove
      · next agent request happrove =>
        cases h
        exact .places signal currentPrice category fetched clock later clientOrderId agent request
          hholder hfresh happrove
    · cases h
  | bankrollCrash fetched clock later clientOrderId =>
    simp only [serviceStep] at h
    split at h
    · next signal currentPrice category _ =>
      split at h
      · cases h
      · obtain rfl := Option.some.inj h
        exact .bankrollCrash signal fetched clock later clientOrderId
    · cases h
  | token =>
    simp only [serviceStep] at h
    split at h
    · next request attempt lastExc hholder =>
      cases h
      exact .token request attempt lastExc hholder
    · cases h
  | reply reply clock =>
    simp only [serviceStep] at h
    split at h
    · next request attempt lastExc hholder =>
      cases h
      exact .reply request attempt lastExc reply clock hholder
    · cases h
  | wake clock =>
    simp only [serviceStep] at h
    split at h
    · next request attempt lastExc hholder =>
      cases h
      exact .wake request attempt lastExc clock hholder
    · cases h
  | crash =>
    cases h
    exact .crash

structure OrderRequest.Recorded (request : OrderRequest) (row : Order) : Prop where
  clientOrderId : row.clientOrderId = request.clientOrderId
  marketTicker : row.marketTicker = request.ticker
  side : row.side = request.side
  count : row.count = request.count
  price : row.priceDollars = request.limit

structure Decision.Allows (decision : Decision) (row : Order) : Prop where
  accepted : decision.accepted = true
  marketTicker : decision.marketTicker = row.marketTicker
  side : decision.side = row.side
  orderId : decision.orderId = some row.clientOrderId

structure WrittenAhead (s : Service) : Prop where
  recorded : ∀ post ∈ s.sent, ∃ row ∈ s.agent.db.orders, post.request.Recorded row
  distinct : ∀ p ∈ s.sent, ∀ q ∈ s.sent, p.call ≠ q.call →
    p.request.clientOrderId ≠ q.request.clientOrderId
  decided : ∀ row ∈ s.agent.db.orders, ∃ decision ∈ s.agent.db.decisions, decision.Allows row

section Steps
variable {cfg : Config} {s s' : Service}

inductive ServiceView (s s' : Service) : Prop
  | quiet (hdecisions : ∀ d ∈ s.agent.db.decisions, d ∈ s'.agent.db.decisions)
      (hterms : s'.agent.db.terms = s.agent.db.terms) (hminted : s'.minted = s.minted)
      (hsent : s'.sent = s.sent)
      (hflight : ∀ request phase', s'.holder = some (.ordering request phase') →
        s'.calls = s.calls ∧ ∃ phase, s.holder = some (.ordering request phase))
  | places (request : OrderRequest) (row : Order) (decision : Decision)
      (hfresh : request.clientOrderId ∉ s.minted) (hrecorded : request.Recorded row)
      (hallows : decision.Allows row)
      (hdecisions : s'.agent.db.decisions = s.agent.db.decisions ++ [decision])
      (hterms : s'.agent.db.terms = s.agent.db.terms ++ [row.terms])
      (hminted : s'.minted = s.minted ++ [request.clientOrderId]) (hsent : s'.sent = s.sent)
      (hflight : ∃ phase, s'.holder = some (.ordering request phase))
  | transmits (request : OrderRequest) (phase phase' : RequestPhase OrderResponse)
      (hdb : s'.agent.db = s.agent.db) (hminted : s'.minted = s.minted)
      (hcalls : s'.calls = s.calls) (hsent : s'.sent = s.sent ++ [⟨s.calls, request⟩])
      (hflight : s.holder = some (.ordering request phase))
      (hflight' : s'.holder = some (.ordering request phase'))

theorem ServiceView.idle (hdecisions : ∀ d ∈ s.agent.db.decisions, d ∈ s'.agent.db.decisions)
    (hterms : s'.agent.db.terms = s.agent.db.terms) (hminted : s'.minted = s.minted)
    (hsent : s'.sent = s.sent) (hidle : ∀ request phase, s'.holder ≠ some (.ordering request phase)) :
    ServiceView s s' :=
  .quiet hdecisions hterms hminted hsent (fun request phase h => absurd h (hidle request phase))

theorem ServiceView.over (hdecisions : ∀ d ∈ s.agent.db.decisions, d ∈ s'.agent.db.decisions)
    (hterms : s'.agent.db.terms = s.agent.db.terms) (hminted : s'.minted = s.minted)
    (hsent : s'.sent = s.sent) (hover : s'.holder = none) : ServiceView s s' :=
  .idle hdecisions hterms hminted hsent
    (fun _ _ h => Option.some_ne_none _ (h.symm.trans hover))

theorem Db.Logs.grows {db db' : Db} (h : db.Logs db') :
    (∀ d ∈ db.decisions, d ∈ db'.decisions) ∧ db'.terms = db.terms := by
  obtain ⟨rows, rfl⟩ := h
  exact ⟨fun d hd => List.mem_append_left _ hd, rfl⟩

theorem placeOrder_chain {agent agent' : Agent} {signal : Signal} {currentPrice : ℚ}
    {contracts : ℤ} {clientOrderId : String} {clock : Clock} {request : OrderRequest}
    (h : (agent', request) = placeOrder agent signal currentPrice contracts clientOrderId clock) :
    ∃ (row : Order) (decision : Decision), request.clientOrderId = clientOrderId ∧
      request.Recorded row ∧ decision.Allows row ∧
      agent'.db.decisions = agent.db.decisions ++ [decision] ∧
      agent'.db.terms = agent.db.terms ++ [row.terms] := by
  obtain ⟨_, hticker, hside, _, hcount, hlimit⟩ := placeOrder_request h
  cases h
  exact ⟨_, _, rfl, ⟨rfl, rfl, rfl, rfl, hlimit.symm⟩, ⟨rfl, rfl, rfl, rfl⟩, rfl, List.map_append⟩

theorem servicePhase_view (cfg : Config) {request : OrderRequest}
    {phase : RequestPhase OrderResponse} (hholder : s.holder = some (.ordering request phase))
    (clock : Clock) (next : RequestPhase OrderResponse) :
    ServiceView s (s.setPhase cfg request clock next) := by
  cases next with
  | finished outcome =>
    obtain ⟨hdecisions, hterms⟩ :=
      recordOutcome_keeps cfg s.agent request.clientOrderId outcome clock
    exact .over (fun d hd => hdecisions ▸ hd) hterms rfl rfl rfl
  | acquiring attempt lastExc | awaiting attempt lastExc | backingOff attempt lastExc
    | asleep attempt =>
    refine .quiet (fun _ => id) rfl rfl rfl fun request' phase' h => ?_
    cases h
    exact ⟨rfl, phase, hholder⟩

theorem serviceStep_view {step : ServiceStep} (h : serviceStep cfg s step = some s') :
    ServiceView s s' := by
  cases serviceStep_rule h with
  | others agent hkeeps =>
    exact .quiet (fun d hd => hkeeps.1 ▸ hd) hkeeps.2 rfl rfl
      (fun request phase h => ⟨rfl, phase, h⟩)
  | enter signal now hholder =>
    obtain ⟨hdecisions, hterms⟩ := (preflight_logs s.agent signal now).grows
    refine .idle hdecisions hterms rfl rfl fun request phase => ?_
    dsimp only
    cases (preflight s.agent signal now).2 <;> nofun
  | market signal fetched clock hholder =>
    obtain ⟨hdecisions, hterms⟩ := (quoteMarket_logs cfg s.agent signal fetched clock).grows
    refine .idle hdecisions hterms rfl rfl fun request phase => ?_
    dsimp only
    cases (quoteMarket cfg s.agent signal fetched clock).2 <;> nofun
  | rejects signal currentPrice category fetched clock later clientOrderId agent hholder happrove =>
    obtain ⟨hdecisions, hterms⟩ := (approve_none_logs happrove).grows
    exact .over hdecisions hterms rfl rfl rfl
  | places signal currentPrice category fetched clock later clientOrderId agent request hholder
      hfresh happrove =>
    obtain ⟨_, _, _, _, _, hplaced⟩ := approve_some happrove
    obtain ⟨row, decision, rfl, hrecorded, hallows, hdecisions, hterms⟩ := placeOrder_chain hplaced
    exact .places request row decision hfresh hrecorded hallows hdecisions hterms rfl rfl ⟨_, rfl⟩
  | bankrollCrash signal fetched clock later clientOrderId =>
    obtain ⟨hdecisions, hterms⟩ :=
      (s.agent.persistDecision_logs signal true none (some clientOrderId) later.now).grows
    exact .over hdecisions hterms rfl rfl rfl
  | token request attempt lastExc hholder =>
    exact .transmits request _ _ rfl rfl rfl rfl hholder rfl
  | reply request attempt lastExc reply clock hholder => exact servicePhase_view cfg hholder clock _
  | wake request attempt lastExc clock hholder => exact servicePhase_view cfg hholder clock _
  | crash => exact .over (fun _ => id) rfl rfl rfl rfl

/-- The chain, and what carries it: the ids in use are minted, and the order in flight has its
row and shares its id with no request of another call. -/
structure ChainInvariant (s : Service) : Prop where
  written : WrittenAhead s
  minted : ∀ post ∈ s.sent, post.request.clientOrderId ∈ s.minted
  flight : ∀ request phase, s.holder = some (.ordering request phase) →
    request.clientOrderId ∈ s.minted ∧ (∃ row ∈ s.agent.db.orders, request.Recorded row) ∧
      ∀ post ∈ s.sent, post.request.clientOrderId = request.clientOrderId → post.call = s.calls

theorem mem_terms_iff {db : Db} {terms : OrderTerms} :
    terms ∈ db.terms ↔ ∃ row ∈ db.orders, row.terms = terms := List.mem_map

theorem Recorded.congr {request : OrderRequest} {row row' : Order} (h : request.Recorded row)
    (hterms : row'.terms = row.terms) : request.Recorded row' := by
  simp only [Order.terms, OrderTerms.mk.injEq] at hterms
  obtain ⟨hid, hticker, hside, _, hcount, hprice, _⟩ := hterms
  exact ⟨hid.trans h.clientOrderId, hticker.trans h.marketTicker, hside.trans h.side,
    hcount.trans h.count, hprice.trans h.price⟩

theorem Allows.congr {decision : Decision} {row row' : Order} (h : decision.Allows row)
    (hterms : row'.terms = row.terms) : decision.Allows row' := by
  simp only [Order.terms, OrderTerms.mk.injEq] at hterms
  obtain ⟨hid, hticker, hside, _⟩ := hterms
  exact ⟨h.accepted, h.marketTicker.trans hticker.symm, h.side.trans hside.symm,
    h.orderId.trans (congrArg some hid.symm)⟩

theorem recorded_of_terms {db db' : Db} (hterms : ∀ terms ∈ db.terms, terms ∈ db'.terms)
    {request : OrderRequest} (h : ∃ row ∈ db.orders, request.Recorded row) :
    ∃ row ∈ db'.orders, request.Recorded row := by
  obtain ⟨row, hrow, hrecorded⟩ := h
  obtain ⟨row', hrow', hsame⟩ := mem_terms_iff.mp (hterms _ (mem_terms_iff.mpr ⟨row, hrow, rfl⟩))
  exact ⟨row', hrow', Recorded.congr hrecorded hsame⟩

theorem ChainInvariant.quiet (hI : ChainInvariant s)
    (hdecisions : ∀ d ∈ s.agent.db.decisions, d ∈ s'.agent.db.decisions)
    (hterms : s'.agent.db.terms = s.agent.db.terms) (hminted : s'.minted = s.minted)
    (hsent : s'.sent = s.sent)
    (hflight : ∀ request phase', s'.holder = some (.ordering request phase') →
      s'.calls = s.calls ∧ ∃ phase, s.holder = some (.ordering request phase)) :
    ChainInvariant s' := by
  have hkept : ∀ terms ∈ s.agent.db.terms, terms ∈ s'.agent.db.terms := fun _ h => hterms ▸ h
  refine ⟨⟨?_, ?_, ?_⟩, ?_, ?_⟩
  · intro post hpost
    exact recorded_of_terms hkept (hI.written.recorded post (hsent ▸ hpost))
  · rw [hsent]
    exact hI.written.distinct
  · intro row hrow
    obtain ⟨row₀, hrow₀, hsame⟩ := mem_terms_iff.mp (hterms ▸ mem_terms_iff.mpr ⟨row, hrow, rfl⟩)
    obtain ⟨decision, hdecision, hallows⟩ := hI.written.decided row₀ hrow₀
    exact ⟨decision, hdecisions decision hdecision, Allows.congr hallows hsame.symm⟩
  · rw [hsent, hminted]
    exact hI.minted
  · intro request phase' hholder
    obtain ⟨hcalls, phase, hholder₀⟩ := hflight request phase' hholder
    obtain ⟨hid, hrow, honly⟩ := hI.flight request phase hholder₀
    rw [hminted, hsent, hcalls]
    exact ⟨hid, recorded_of_terms hkept hrow, honly⟩

theorem ChainInvariant.place (hI : ChainInvariant s) {request : OrderRequest} {row : Order}
    {decision : Decision} (hfresh : request.clientOrderId ∉ s.minted)
    (hrecorded : request.Recorded row) (hallows : decision.Allows row)
    (hdecisions : s'.agent.db.decisions = s.agent.db.decisions ++ [decision])
    (hterms : s'.agent.db.terms = s.agent.db.terms ++ [row.terms])
    (hminted : s'.minted = s.minted ++ [request.clientOrderId]) (hsent : s'.sent = s.sent)
    (hflight : ∃ phase, s'.holder = some (.ordering request phase)) : ChainInvariant s' := by
  have hkept : ∀ terms ∈ s.agent.db.terms, terms ∈ s'.agent.db.terms :=
    fun _ h => hterms ▸ List.mem_append_left _ h
  refine ⟨⟨?_, ?_, ?_⟩, ?_, ?_⟩
  · intro post hpost
    exact recorded_of_terms hkept (hI.written.recorded post (hsent ▸ hpost))
  · rw [hsent]
    exact hI.written.distinct
  · intro row' hrow'
    have hmem : row'.terms ∈ s.agent.db.terms ++ [row.terms] :=
      hterms ▸ mem_terms_iff.mpr ⟨row', hrow', rfl⟩
    rw [hdecisions]
    rcases List.mem_append.mp hmem with hold | hnew
    · obtain ⟨row₀, hrow₀, hsame⟩ := mem_terms_iff.mp hold
      obtain ⟨decision₀, hdecision₀, hallows₀⟩ := hI.written.decided row₀ hrow₀
      exact ⟨decision₀, List.mem_append_left _ hdecision₀, Allows.congr hallows₀ hsame.symm⟩
    · exact ⟨decision, List.mem_append_right _ (List.mem_singleton.mpr rfl),
        Allows.congr hallows (List.mem_singleton.mp hnew)⟩
  · rw [hsent, hminted]
    exact fun post hpost => List.mem_append_left _ (hI.minted post hpost)
  · intro request' phase' hholder'
    obtain ⟨phase, hholder⟩ := hflight
    cases hholder.symm.trans hholder'
    refine ⟨?_, ?_, fun post hpost hid => ?_⟩
    · rw [hminted]
      exact List.mem_append_right _ (List.mem_singleton.mpr rfl)
    · obtain ⟨row', hrow', hsame⟩ := mem_terms_iff.mp
        (hterms ▸ List.mem_append_right _ (List.mem_singleton.mpr rfl) : row.terms ∈ s'.agent.db.terms)
      exact ⟨row', hrow', Recorded.congr hrecorded hsame⟩
    · -- an id drawn just now is in no request yet
      exact absurd (hid ▸ hI.minted post (hsent ▸ hpost)) hfresh

theorem ChainInvariant.transmit (hI : ChainInvariant s) {request : OrderRequest}
    {phase phase' : RequestPhase OrderResponse} (hdb : s'.agent.db = s.agent.db)
    (hminted : s'.minted = s.minted) (hcalls : s'.calls = s.calls)
    (hsent : s'.sent = s.sent ++ [⟨s.calls, request⟩])
    (hflight : s.holder = some (.ordering request phase))
    (hflight' : s'.holder = some (.ordering request phase')) : ChainInvariant s' := by
  obtain ⟨hid, hrow, honly⟩ := hI.flight request phase hflight
  have hmem : ∀ post ∈ s'.sent, post ∈ s.sent ∨ post = ⟨s.calls, request⟩ := by
    intro post hpost
    rw [hsent] at hpost
    exact (List.mem_append.mp hpost).imp_right List.mem_singleton.mp
  refine ⟨⟨?_, ?_, ?_⟩, ?_, ?_⟩
  · intro post hpost
    rw [hdb]
    rcases hmem post hpost with hold | rfl
    · exact hI.written.recorded post hold
    · exact hrow
  · intro p hp q hq hne heq
    rcases hmem p hp with hpold | rfl <;> rcases hmem q hq with hqold | rfl
    · exact hI.written.distinct p hpold q hqold hne heq
    · exact hne (honly p hpold heq)
    · exact hne (honly q hqold heq.symm).symm
    · exact hne rfl
  · rw [hdb]
    exact hI.written.decided
  · intro post hpost
    rw [hminted]
    rcases hmem post hpost with hold | rfl
    · exact hI.minted post hold
    · exact hid
  · intro request' phase₁ hholder
    cases hflight'.symm.trans hholder
    rw [hminted, hdb, hcalls]
    refine ⟨hid, hrow, fun post hpost heq => ?_⟩
    rcases hmem post hpost with hold | rfl
    · exact honly post hold heq
    · rfl

theorem ChainInvariant.step {step : ServiceStep} (hI : ChainInvariant s)
    (h : serviceStep cfg s step = some s') : ChainInvariant s' := by
  cases serviceStep_view h with
  | quiet hdecisions hterms hminted hsent hflight =>
    exact hI.quiet hdecisions hterms hminted hsent hflight
  | places request row decision hfresh hrecorded hallows hdecisions hterms hminted hsent hflight =>
    exact hI.place hfresh hrecorded hallows hdecisions hterms hminted hsent hflight
  | transmits request phase phase' hdb hminted hcalls hsent hflight hflight' =>
    exact hI.transmit hdb hminted hcalls hsent hflight hflight'

end Steps

/-- In every state of every run: an order is transmitted after its row and its row written after
its decision, and no two calls share an id. -/
theorem written_ahead (cfg : Config) (kill : KillSwitch) (steps : List ServiceStep) :
    AllStates (serviceStep cfg) WrittenAhead (.start kill) steps := by
  refine allStates_of_invariant (I := ChainInvariant) (fun s step s' hI h => hI.step h)
    (fun s hI => hI.written) ⟨⟨?_, ?_, ?_⟩, ?_, ?_⟩ steps
  · exact fun post hpost => absurd hpost List.not_mem_nil
  · exact fun p hp => absurd hp List.not_mem_nil
  · exact fun row hrow => absurd hrow List.not_mem_nil
  · exact fun post hpost => absurd hpost List.not_mem_nil
  · exact fun request phase hflight => absurd hflight (Option.some_ne_none _).symm

end KalshiAgent
