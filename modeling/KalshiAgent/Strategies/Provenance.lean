import KalshiAgent.Strategies.Throttle

/-! Where orders come from. Every order row of a run of ticks goes back to a tick of it: to a market
that this tick had resolved, to an answer of the LLM about that market which clears the thresholds,
and to a check of the risk monitor that let it through. -/

namespace KalshiAgent
open Execution

/-- What a call has when its risk checks begin: the agent that they find, and what the exchange has
told of the market and the balance. -/
structure AtCheck where
  agent : Agent
  currentPrice : ℚ
  category : Option String
  bankroll : ℚ

def AtCheck.trade (c : AtCheck) (signal : Signal) : Trade :=
  signal.trade c.currentPrice c.category c.bankroll

/-- The stages of a call up to its risk checks. -/
def checkReached (cfg : Config) (agent : Agent) (signal : Signal) (env : Awaits) : Option AtCheck :=
  match preflight agent signal env.entered with
  | (_, none) => none
  | (agent, some ()) =>
    match quoteMarket cfg (env.duringMarket.run agent) signal env.market env.marketClock with
    | (_, none) => none
    | (agent, some (currentPrice, category)) =>
      match env.bankroll with
      | .error _ => none
      | .ok bankroll => some ⟨env.duringBalance.run agent, currentPrice, category, bankroll⟩

/-- The terms of a buy for the signal that the risk checks have allowed and sized. -/
structure Checked (cfg : Config) (signal : Signal) (c : AtCheck) (clock : Clock)
    (terms : OrderTerms) : Prop where
  ticker : terms.marketTicker = signal.marketTicker
  side : terms.side = signal.side
  buy : terms.action = .buy
  running : c.agent.kill.isEngaged = false
  whitelisted : notWhitelisted cfg.markets (c.trade signal) = none
  funded : 0 < c.bankroll
  allowed : (checkTrade cfg c.agent.db c.agent.kill c.agent.risk clock (c.trade signal)).2.allowed =
    true
  size : terms.count = (sizeTrade cfg c.agent.db (c.trade signal)).sizedContracts
  price : 0 < c.currentPrice ∧ c.currentPrice < 1
  limit : terms.priceDollars = priceDecimalToStr c.currentPrice

/-- This call comes to these checks, and adds an order with these terms that they have let through. -/
structure Places (cfg : Config) (agent : Agent) (signal : Signal) (env : Awaits) (c : AtCheck)
    (terms : OrderTerms) : Prop where
  reached : checkReached cfg agent signal env = some c
  checked : Checked cfg signal c env.checked terms
  added : (handleSignal cfg agent signal env).db.terms = agent.db.terms ++ [terms]

/-- Where a tick has a market from: `get_market` of a configured ticker, or a page of the listing, on
which the market passes the filters. -/
inductive Chosen (config : DiscoveryConfig) (db : Db) (t : Tick) : Resolved → Prop
  | configured (fetch : TickerFetch) (market : AssessedMarket) (tickers : config.tickers ≠ [])
    (fetched : fetch ∈ t.fetches) (answered : fetch.reply = .ok market)
    (listed : market.ticker ∈ config.tickers) : Chosen config db t ⟨market, fetch.checkedAt⟩
  | discovered (j : ℕ) (markets : List Scanned) (next : Option String) (m : Scanned)
    (tickers : config.tickers = []) (requested : j < config.discoveryMaxPages)
    (page : t.pages j = .ok (markets, next)) (onPage : m ∈ markets)
    (passes : config.passes db (t.now + config.minHoursToClose) m = true) :
    Chosen config db t ⟨m.market.toAssessedMarket, m.checkedAt⟩

/-- The agent that a tick's signal finds when its turn has come. -/
def agentAtTurn (cfg : Config) (agent : Agent) (t : Tick) (signals : List Signal) (k : ℕ) : Agent :=
  (t.handlings k).waiting.run (handleSignals cfg t.handlings 0 agent (signals.take k))

/-- The chain from an order's terms back to a tick that begins with this agent: the `i`-th market that
it resolves, the signal that this market's own answer gives, and the turn of that signal. -/
structure WarrantedBy (cfg : Config) (config : DiscoveryConfig) (assessor : Assessor) (agent : Agent)
    (t : Tick) (resolved : List Resolved) (signals : List Signal) (i k : ℕ) (r : Resolved)
    (item : TickItem) (signal : Signal) (c : AtCheck) (terms : OrderTerms) : Prop where
  resolves : config.resolveMarkets agent.db t = .ok resolved
  generates : generateSignals assessor ((t.items resolved).map TickItem.toAssessment) = .ok signals
  market : resolved[i]? = some r
  chosen : Chosen config agent.db t r
  fresh : config.wasRecentlySignalled agent.db r.market.ticker r.checkedAt = false
  asked : (t.items resolved)[i]? = some item
  about : item.market = r.market
  assessed : assess assessor item.toAssessment = .ok (some signal)
  sound : SoundFor assessor item.toAssessment signal
  turn : signals[k]? = some signal
  places : Places cfg (agentAtTurn cfg agent t signals k) signal (t.handlings k).awaits c terms

def Warranted (cfg : Config) (config : DiscoveryConfig) (assessor : Assessor) (agent : Agent)
    (t : Tick) (terms : OrderTerms) : Prop :=
  ∃ resolved signals i k r item signal c,
    WarrantedBy cfg config assessor agent t resolved signals i k r item signal c terms

section Resolve
variable {config : DiscoveryConfig} {db : Db} {t : Tick}

theorem fetchTickers_mem {fetches : List TickerFetch} {resolved : List Resolved}
    (h : config.fetchTickers db fetches = .ok resolved) :
    ∀ r ∈ resolved, ∃ fetch ∈ fetches, fetch.reply = .ok r.market ∧ r.checkedAt = fetch.checkedAt := by
  induction fetches generalizing resolved with
  | nil =>
    cases h
    exact List.forall_mem_nil _
  | cons fetch rest ih =>
    have hlater : ∀ later, config.fetchTickers db rest = .ok later → ∀ r ∈ later,
        ∃ f ∈ fetch :: rest, f.reply = .ok r.market ∧ r.checkedAt = f.checkedAt := by
      intro later hrest r hr
      obtain ⟨f, hmem, hfetch⟩ := ih hrest r hr
      exact ⟨f, List.mem_cons_of_mem fetch hmem, hfetch⟩
    unfold DiscoveryConfig.fetchTickers at h
    split_ifs at h
    · exact hlater resolved h
    cases hreply : fetch.reply with
    | error e =>
      rw [hreply] at h
      cases e with
      | api statusCode body => exact hlater resolved h
      | auth message => cases h
      | other message => cases h
    | ok market =>
      rw [hreply] at h
      dsimp only at h
      cases hrest : config.fetchTickers db rest with
      | error e =>
        rw [hrest] at h
        cases h
      | ok later =>
        rw [hrest] at h
        cases h
        refine List.forall_mem_cons.mpr ⟨?_, hlater later hrest⟩
        exact ⟨fetch, List.mem_cons_self, hreply, rfl⟩

theorem resolveMarkets_chosen {resolved : List Resolved}
    (hfetches : t.fetches.map TickerFetch.ticker = config.tickers)
    (h : config.resolveMarkets db t = .ok resolved) : ∀ r ∈ resolved, Chosen config db t r := by
  intro r hr
  unfold DiscoveryConfig.resolveMarkets at h
  split_ifs at h with htickers
  · obtain ⟨fetch, hfetch, hreply, hchecked⟩ := fetchTickers_mem h r hr
    have hlisted : r.market.ticker ∈ config.tickers := by
      rw [fetch.answers r.market hreply, ← hfetches]
      exact List.mem_map_of_mem hfetch
    rw [show r = ⟨r.market, fetch.checkedAt⟩ from congrArg (Resolved.mk r.market) hchecked]
    exact .configured fetch r.market htickers hfetch hreply hlisted
  · cases hfound : (config.discover db t.now t.pages).outcome with
    | error e =>
      rw [hfound] at h
      cases h
    | ok found =>
      rw [hfound] at h
      cases h
      obtain ⟨m, hm, rfl⟩ := List.mem_map.mp hr
      refine discoverPages_forall
        (P := fun m => Chosen config db t ⟨m.market.toAssessedMarket, m.checkedAt⟩)
        hfound (List.forall_mem_nil _) ?_ m hm
      intro j hj markets next hpage m hmem hpasses
      rw [Nat.zero_add] at hj
      exact .discovered j markets next m (not_not.mp htickers) hj hpage hmem hpasses

end Resolve

section Handle
variable {cfg : Config} {agent agent' : Agent} {signal : Signal} {terms : OrderTerms}

theorem approve_checked {c : AtCheck} {clock later : Clock} {clientOrderId : String}
    {request : OrderRequest}
    (h : approve cfg c.agent signal c.currentPrice c.category (.ok c.bankroll) clock later
      clientOrderId = (agent', some request)) :
    ∃ order : OrderTerms, agent'.db.terms = c.agent.db.terms ++ [order] ∧
      Checked cfg signal c clock order := by
  unfold approve at h
  dsimp only at h
  split_ifs at h with hzero hallowed hexpired
  · cases h
  · cases h
  · obtain ⟨hkill, _, hpos, hlt, hsize⟩ := checkTrade_allowed hallowed
    have hwhite := checkTrade_whitelisted hallowed
    have hsized := congrArg RiskDecision.sizedContracts hsize
    cases h
    refine ⟨_, List.map_append, ?_⟩
    exact ⟨rfl, rfl, rfl, hkill, hwhite, not_le.mp hzero, hallowed, hsized, ⟨hpos, hlt⟩, rfl⟩
  · cases h

theorem terms_of_logs {db db' : Db} (h : db.Logs db') : db'.terms = db.terms := by
  rw [Db.terms, Db.terms, h.orders]

theorem quoted_terms {entered quoted : Agent} {env : Awaits} {next : Option Unit}
    {quote : Option (ℚ × Option String)}
    (hentry : preflight agent signal env.entered = (entered, next))
    (hquote : quoteMarket cfg (env.duringMarket.run entered) signal env.market env.marketClock =
      (quoted, quote)) : quoted.db.terms = agent.db.terms := by
  have hpreflight := terms_of_logs (preflight_logs agent signal env.entered)
  have hmarket := (env.duringMarket.keepsAudit entered).2
  have hquoted := terms_of_logs
    (quoteMarket_logs cfg (env.duringMarket.run entered) signal env.market env.marketClock)
  rw [hentry] at hpreflight
  rw [hquote] at hquoted
  exact hquoted.trans (hmarket.trans hpreflight)

/-- One call of the executor adds the terms of at most one order, and these have been checked. -/
theorem SignalView.places {env : Awaits} (h : SignalView cfg agent signal env agent') :
    agent'.db.terms = agent.db.terms ∨ ∃ c order, checkReached cfg agent signal env = some c ∧
      Checked cfg signal c env.checked order ∧ agent'.db.terms = agent.db.terms ++ [order] := by
  cases h with
  | expired hentry =>
    have hpreflight := terms_of_logs (preflight_logs agent signal env.entered)
    rw [hentry] at hpreflight
    exact .inl hpreflight
  | unquoted hentry hquote => exact .inl (quoted_terms hentry hquote)
  | @unsent _ quoted _ _ _ hentry hquote happrove =>
    have hbalance := (env.duringBalance.keepsAudit quoted).2
    exact .inl ((terms_of_logs (approve_none_logs happrove)).trans
      (hbalance.trans (quoted_terms hentry hquote)))
  | @sent _ quoted approved currentPrice category request hentry hquote happrove =>
    have hbalance := (env.duringBalance.keepsAudit quoted).2
    have hbefore := hbalance.trans (quoted_terms hentry hquote)
    have hduring := (env.duringOrder.keepsAudit approved).2
    have hafter := (recordOutcome_keeps cfg (env.duringOrder.run approved) request.clientOrderId
      env.response env.answered).2
    cases hbankroll : env.bankroll with
    | error e =>
      rw [hbankroll] at happrove
      cases happrove
    | ok bankroll =>
      have hreached : checkReached cfg agent signal env =
          some ⟨env.duringBalance.run quoted, currentPrice, category, bankroll⟩ := by
        rw [checkReached, hentry]
        dsimp only
        rw [hquote, hbankroll]
      rw [hbankroll] at happrove
      obtain ⟨order, hterms, hchecked⟩ :=
        @approve_checked cfg _ signal ⟨env.duringBalance.run quoted, currentPrice, category, bankroll⟩
          _ _ _ _ happrove
      refine .inr ⟨_, order, hreached, hchecked, ?_⟩
      exact hafter.trans (hduring.trans (hterms.trans (by rw [hbefore])))

theorem handleSignal_places (cfg : Config) (agent : Agent) (signal : Signal) (env : Awaits) :
    (handleSignal cfg agent signal env).db.terms = agent.db.terms ∨
      ∃ c order, Places cfg agent signal env c order := by
  rcases (handleSignal_view cfg agent signal env).places with hsame |
    ⟨c, order, hreached, hchecked, hadded⟩
  · exact .inl hsame
  · exact .inr ⟨c, order, hreached, hchecked, hadded⟩

theorem handleSignals_places {handlings : ℕ → Handling} {i : ℕ} {signals : List Signal}
    (h : terms ∈ (handleSignals cfg handlings i agent signals).db.terms) :
    terms ∈ agent.db.terms ∨ ∃ k signal c, signals[k]? = some signal ∧
      Places cfg ((handlings (i + k)).waiting.run (handleSignals cfg handlings i agent (signals.take k)))
        signal (handlings (i + k)).awaits c terms := by
  induction signals generalizing i agent with
  | nil => exact .inl h
  | cons signal signals ih =>
    rcases ih h with hearly | ⟨k, later, c, hlater, hplaces⟩
    · have hwaiting := ((handlings i).waiting.keepsAudit agent).2
      rcases handleSignal_places cfg ((handlings i).waiting.run agent) signal (handlings i).awaits with
        hsame | ⟨c, order, hplaces⟩
      · exact .inl (hwaiting ▸ hsame ▸ hearly)
      · rw [hplaces.added, List.mem_append, hwaiting, List.mem_singleton] at hearly
        rcases hearly with hold | rfl
        · exact .inl hold
        · exact .inr ⟨0, signal, c, rfl, hplaces⟩
    · rw [Nat.add_right_comm] at hplaces
      exact .inr ⟨k + 1, later, c, hlater, hplaces⟩

end Handle

section Run
variable {cfg : Config} {config : DiscoveryConfig} {assessor : Assessor} {s s' : Throttled}

theorem generateSignals_assessed {t : Tick} {resolved : List Resolved} {signals : List Signal}
    (h : generateSignals assessor ((t.items resolved).map TickItem.toAssessment) = .ok signals)
    {signal : Signal} (hsignal : signal ∈ signals) :
    ∃ (i : ℕ) (r : Resolved) (item : TickItem), resolved[i]? = some r ∧
      (t.items resolved)[i]? = some item ∧ item.market = r.market ∧
      assess assessor item.toAssessment = .ok (some signal) := by
  obtain ⟨hassess, rfl⟩ := generateSignals_ok_iff.mp h
  obtain ⟨asked, hasked, halone⟩ := List.mem_flatMap.mp hsignal
  obtain ⟨outcome, houtcome⟩ := hassess asked hasked
  rw [alone_eq, houtcome] at halone
  obtain rfl := Option.mem_toList.mp halone
  obtain ⟨item, hitem, rfl⟩ := List.mem_map.mp hasked
  obtain ⟨i, hi, rfl⟩ := List.mem_mapIdx.mp hitem
  refine ⟨i, resolved[i], _, List.getElem?_eq_getElem hi, ?_, rfl, houtcome⟩
  rw [Tick.items, List.getElem?_mapIdx, List.getElem?_eq_getElem hi]
  rfl

theorem throttleStep_terms {l : ThrottleStep} (h : throttleStep cfg config assessor s l = some s')
    {terms : OrderTerms} (hterms : terms ∈ s'.agent.db.terms) :
    terms ∈ s.agent.db.terms ∨
      ∃ t, l = .tick t ∧ Warranted cfg config assessor s.agent t terms := by
  cases throttleStep_view h with
  | meanwhile m => exact .inl ((m.keepsAudit s.agent).2 ▸ hterms)
  | unresolved hresolved => exact .inl hterms
  | raises hresolved horder hsignals => exact .inl hterms
  | @emits t resolved signals hfetches hresolved horder hsignals =>
    rcases handleSignals_places hterms with hold | ⟨k, signal, c, hturn, hplaces⟩
    · exact .inl hold
    · obtain ⟨i, r, item, hr, hitem, habout, hassessed⟩ :=
        generateSignals_assessed hsignals (List.mem_of_getElem? hturn)
      have hmem := List.mem_of_getElem? hr
      have hchosen := resolveMarkets_chosen hfetches hresolved r hmem
      have hfresh := resolveMarkets_fresh hresolved r hmem
      rw [Nat.zero_add] at hplaces
      exact .inr ⟨t, rfl, resolved, signals, i, k, r, item, signal, c, hresolved, hsignals, hr,
        hchosen, hfresh, hitem, habout, hassessed, assess_sound hassessed, hturn, hplaces⟩

/-- An order row that a run of ticks ends with was there at its start, or is warranted by one of its
ticks and the agent that this tick began with. -/
theorem orders_warranted (cfg : Config) (config : DiscoveryConfig) (assessor : Assessor)
    (s s' : Throttled) (steps : List ThrottleStep) (terms : OrderTerms)
    (hrun : exec (throttleStep cfg config assessor) s steps = some s')
    (hterms : terms ∈ s'.agent.db.terms) :
    terms ∈ s.agent.db.terms ∨ ∃ before t after u, steps = before ++ .tick t :: after ∧
      exec (throttleStep cfg config assessor) s before = some u ∧
      Warranted cfg config assessor u.agent t terms := by
  have horigin := exec_origin (P := fun (s : Throttled) x => x ∈ s.agent.db.terms)
    (Q := fun s l x => ∃ t, l = .tick t ∧ Warranted cfg config assessor s.agent t x)
    (fun _ _ _ hstep _ hx => throttleStep_terms hstep hx) hrun hterms
  rcases horigin with hstart | ⟨before, l, after, u, rfl, hbefore, t, rfl, hwarranted⟩
  · exact .inl hstart
  · exact .inr ⟨before, t, after, u, rfl, hbefore, hwarranted⟩

end Run

def certainTick : Tick :=
  { lowConfidence 0 with
    answers := fun _ =>
      ⟨0, .ok (.obj [("probability", .float .one), ("confidence", .float .one)]), 0⟩
    handlings := fun _ => ⟨.nothing, { marketUnreachable with
      market := .ok ⟨none, some "active", some (.decimal (1 / 2)), some (.decimal (1 / 2))⟩ }⟩ }

theorem orders_warranted_certainTick :
    ∃ s' terms, exec (throttleStep (.example (.fixed 0)) fedThrottle plainAssessor)
        ⟨⟨.empty, ⟨none⟩, .start⟩, []⟩ [.tick certainTick] = some s' ∧
      terms ∈ s'.agent.db.terms ∧ terms.count = 10 ∧ (terms ∈ Db.empty.terms ∨
        ∃ before t after u, [ThrottleStep.tick certainTick] = before ++ .tick t :: after ∧
          exec (throttleStep (.example (.fixed 0)) fedThrottle plainAssessor)
            ⟨⟨.empty, ⟨none⟩, .start⟩, []⟩ before = some u ∧
          Warranted (.example (.fixed 0)) fedThrottle plainAssessor u.agent t terms) := by
  have hrun : (exec (throttleStep (.example (.fixed 0)) fedThrottle plainAssessor)
      ⟨⟨.empty, ⟨none⟩, .start⟩, []⟩ [.tick certainTick]).map (fun s => s.agent.db.terms) =
        some [⟨"c1", "FED", .yes, .buy, 10, ⟨5000⟩, some 1⟩] := by
    decide +kernel
  obtain ⟨s', hs', hterms⟩ := Option.map_eq_some_iff.mp hrun
  have hnew := hterms ▸
    List.mem_singleton_self (⟨"c1", "FED", .yes, .buy, 10, ⟨5000⟩, some 1⟩ : OrderTerms)
  exact ⟨s', _, hs', hnew, rfl, orders_warranted _ _ _ _ s' _ _ hs' hnew⟩

end KalshiAgent
