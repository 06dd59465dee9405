import KalshiAgent.Execution.Audit
import KalshiAgent.Strategies.Discovery
import KalshiAgent.Strategies.Independence

/-! Ticks of the strategy and the spacing of their LLM calls. The throttle reads the decisions, and
only a signal that the executor has handled leaves one. -/

namespace KalshiAgent
open Execution

/-- A fetch of a configured ticker: the clock when the throttle is checked, and how `get_market` ends,
by an exception or with the market that was asked for. -/
structure TickerFetch where
  ticker : Ticker
  checkedAt : Time
  reply : Except ClientError AssessedMarket
  answers : ∀ market, reply = .ok market → market.ticker = ticker

structure Resolved where
  market : AssessedMarket
  checkedAt : Time

structure LlmAnswer where
  promptNow : Time
  reply : Except ChatError Json
  signalNow : Time

/-- A signal's turn at the executor, with the other tasks while it waits for the lock. -/
structure Handling where
  waiting : Meanwhile
  awaits : Awaits

structure Tick where
  now : Time
  fetches : List TickerFetch
  pages : ℕ → Except ClientError MarketPage
  answers : ℕ → LlmAnswer
  handlings : ℕ → Handling

structure TickItem extends Assessment where
  checkedAt : Time

structure LlmCall where
  ticker : Ticker
  calledAt : Time
  deriving DecidableEq

namespace DiscoveryConfig
variable (config : DiscoveryConfig)

def fetchTickers (db : Db) : List TickerFetch → Except DiscoveryError (List Resolved)
  | [] => .ok []
  | fetch :: rest =>
    if config.wasRecentlySignalled db fetch.ticker fetch.checkedAt then fetchTickers db rest
    else
      match fetch.reply with
      | .error (.api _ _) => fetchTickers db rest
      | .error e => .error (.client e)
      | .ok market => (fetchTickers db rest).map (⟨market, fetch.checkedAt⟩ :: ·)

def resolveMarkets (db : Db) (t : Tick) : Except DiscoveryError (List Resolved) :=
  if config.tickers ≠ [] then fetchTickers config db t.fetches
  else
    (config.discover db t.now t.pages).outcome.map fun found =>
      found.map fun m => ⟨m.market.toAssessedMarket, m.checkedAt⟩

end DiscoveryConfig

/-- The part of a round before its LLM call: the asks of a market that the LLM is asked about. -/
def prompted (item : Assessment) : Except PyError (Option (Decimal × Decimal)) :=
  if !item.market.active then .ok none
  else if !(PriceText.given item.market.yesAskDollars && PriceText.given item.market.noAskDollars) then
    .ok none
  else do
    let yesAsk ← PriceText.read item.market.yesAskDollars
    let noAsk ← PriceText.read item.market.noAskDollars
    let _ ← item.market.userPrompt item.promptNow
    return some (yesAsk, noAsk)

def llmCall (item : Assessment) : Option LlmCall :=
  match prompted item with
  | .ok (some _) => some ⟨item.market.ticker, item.promptNow⟩
  | _ => none

/-- The LLM calls of `generate_signals`, up to the first exception. -/
def llmCalls (assessor : Assessor) : List Assessment → List LlmCall
  | [] => []
  | item :: items =>
    match assess assessor item with
    | .error _ => (llmCall item).toList
    | .ok _ => (llmCall item).toList ++ llmCalls assessor items

/-- The loop of the tick over its signals, whose exceptions are caught one by one. -/
def handleSignals (cfg : Config) (handlings : ℕ → Handling) : ℕ → Agent → List Signal → Agent
  | _, agent, [] => agent
  | i, agent, signal :: signals =>
    handleSignals cfg handlings (i + 1)
      (handleSignal cfg ((handlings i).waiting.run agent) signal (handlings i).awaits) signals

def Tick.items (t : Tick) (resolved : List Resolved) : List TickItem :=
  resolved.mapIdx fun i r =>
    ⟨⟨r.market, (t.answers i).promptNow, (t.answers i).reply, (t.answers i).signalNow⟩, r.checkedAt⟩

structure Throttled where
  agent : Agent
  calls : List LlmCall

inductive ThrottleStep
  | tick (t : Tick)
  | meanwhile (m : Meanwhile)

section Run
variable (cfg : Config) (config : DiscoveryConfig) (assessor : Assessor)

/-- `_tick_strategy`. Every configured ticker is fetched, and a market is asked about after its
throttle was checked. -/
def throttleStep (s : Throttled) : ThrottleStep → Option Throttled
  | .meanwhile m => some { s with agent := m.run s.agent }
  | .tick t =>
    if t.fetches.map TickerFetch.ticker = config.tickers then
      match config.resolveMarkets s.agent.db t with
      | .error _ => some s
      | .ok resolved =>
        let items := t.items resolved
        if items.all (fun item => item.checkedAt ≤ item.promptNow) then
          let items := items.map TickItem.toAssessment
          let calls := s.calls ++ llmCalls assessor items
          match generateSignals assessor items with
          | .error _ => some { s with calls }
          | .ok signals => some ⟨handleSignals cfg t.handlings 0 s.agent signals, calls⟩
        else none
    else none

def Spaced (calls : List LlmCall) : Prop :=
  calls.Pairwise fun earlier later =>
    earlier.ticker = later.ticker → config.minBetween ≤ later.calledAt - earlier.calledAt

/-- The strategy has a decision for the call's ticker that is no older than the call. -/
def Db.Records (db : Db) (call : LlmCall) : Prop :=
  ∃ row ∈ db.decisions, row.marketTicker = call.ticker ∧ row.strategy = strategyName ∧
    call.calledAt ≤ row.createdAt

def tickCalls (db : Db) (t : Tick) : List LlmCall :=
  match config.resolveMarkets db t with
  | .error _ => []
  | .ok resolved => llmCalls assessor ((t.items resolved).map TickItem.toAssessment)

end Run

theorem assess_eq_prompted (assessor : Assessor) (item : Assessment) :
    assess assessor item = prompted item >>= fun asks =>
      match asks with
      | none => .ok none
      | some (yesAsk, noAsk) => assessReply assessor item yesAsk noAsk := by
  unfold assess prompted
  split_ifs
  · rfl
  · rfl
  · cases PriceText.read item.market.yesAskDollars with
    | error e => rfl
    | ok yesAsk =>
      cases PriceText.read item.market.noAskDollars with
      | error e => rfl
      | ok noAsk =>
        cases item.market.userPrompt item.promptNow with
        | error e => rfl
        | ok prompt => rfl

theorem llmCall_eq {item : Assessment} {call : LlmCall} (h : call ∈ (llmCall item).toList) :
    call = ⟨item.market.ticker, item.promptNow⟩ := by
  have hcall := Option.mem_toList.mp h
  unfold llmCall at hcall
  split at hcall
  · exact (Option.some.inj hcall).symm
  · cases hcall

theorem mem_llmCalls {assessor : Assessor} {items : List Assessment} {call : LlmCall}
    (h : call ∈ llmCalls assessor items) :
    ∃ item ∈ items, call = ⟨item.market.ticker, item.promptNow⟩ := by
  induction items with
  | nil => exact absurd h List.not_mem_nil
  | cons item items ih =>
    unfold llmCalls at h
    cases hassess : assess assessor item with
    | error e =>
      rw [hassess] at h
      exact ⟨item, List.mem_cons_self, llmCall_eq h⟩
    | ok signal =>
      rw [hassess] at h
      rcases List.mem_append.mp h with hcall | hlater
      · exact ⟨item, List.mem_cons_self, llmCall_eq hcall⟩
      · obtain ⟨item', hmem, rfl⟩ := ih hlater
        exact ⟨item', List.mem_cons_of_mem item hmem, rfl⟩

section Fresh
variable {config : DiscoveryConfig} {db : Db}

theorem fetchTickers_fresh {fetches : List TickerFetch} {resolved : List Resolved}
    (h : config.fetchTickers db fetches = .ok resolved) :
    ∀ r ∈ resolved, config.wasRecentlySignalled db r.market.ticker r.checkedAt = false := by
  induction fetches generalizing resolved with
  | nil =>
    cases h
    exact List.forall_mem_nil _
  | cons fetch rest ih =>
    unfold DiscoveryConfig.fetchTickers at h
    split_ifs at h with hrecent
    · exact ih h
    cases hreply : fetch.reply with
    | error e =>
      rw [hreply] at h
      cases e with
      | api statusCode body => exact ih h
      | auth message => cases h
      | other message => cases h
    | ok market =>
      rw [hreply] at h
      dsimp only at h
      cases hlater : config.fetchTickers db rest with
      | error e =>
        rw [hlater] at h
        cases h
      | ok later =>
        rw [hlater] at h
        cases h
        refine List.forall_mem_cons.mpr ⟨?_, ih hlater⟩
        rw [fetch.answers market hreply]
        exact Bool.eq_false_iff.mpr hrecent

theorem passes_fresh {closeCutoff : Time} {m : Scanned}
    (h : config.passes db closeCutoff m = true) :
    config.wasRecentlySignalled db m.market.ticker m.checkedAt = false := by
  unfold DiscoveryConfig.passes at h
  split at h
  · exact Bool.not_eq_true' _ ▸ h
  · cases h

theorem scanPage_forall {P : Scanned → Prop} {closeCutoff : Time}
    {candidates found ms : List Scanned} {full : Bool}
    (h : config.scanPage db closeCutoff candidates ms = .ok (found, full))
    (hcandidates : ∀ m ∈ candidates, P m)
    (hms : ∀ m ∈ ms, config.passes db closeCutoff m = true → P m) : ∀ m ∈ found, P m := by
  induction ms generalizing candidates with
  | nil =>
    cases h
    exact hcandidates
  | cons m ms ih =>
    obtain ⟨hm, hms⟩ := List.forall_mem_cons.mp hms
    have hnext : config.passes db closeCutoff m = true → ∀ m' ∈ candidates ++ [m], P m' := by
      intro hpass
      exact List.forall_mem_append.mpr ⟨hcandidates, List.forall_mem_singleton.mpr (hm hpass)⟩
    rcases @DiscoveryConfig.scanPage_cases config db closeCutoff m with ⟨_, e, hscan⟩ |
      ⟨_, _, hscan⟩ | ⟨_, hpass, hscan⟩
    · rw [hscan] at h
      cases h
    · rw [hscan] at h
      exact ih h hcandidates hms
    · rw [hscan] at h
      split_ifs at h
      · cases h
        exact hnext hpass
      · exact ih h (hnext hpass) hms

theorem discoverPages_forall {P : Scanned → Prop} {closeCutoff : Time}
    {replies : ℕ → Except ClientError MarketPage} {pagesLeft i : ℕ} {cursor : Option String}
    {candidates found : List Scanned}
    (h : (config.discoverPages db closeCutoff replies pagesLeft i cursor candidates).outcome =
      .ok found)
    (hcandidates : ∀ m ∈ candidates, P m)
    (hpages : ∀ j < i + pagesLeft, ∀ markets next, replies j = .ok (markets, next) →
      ∀ m ∈ markets, config.passes db closeCutoff m = true → P m) : ∀ m ∈ found, P m := by
  induction pagesLeft generalizing i cursor candidates with
  | zero =>
    cases h
    exact hcandidates
  | succ pagesLeft ih =>
    unfold DiscoveryConfig.discoverPages at h
    rcases hreply : replies i with (_ | _ | _) | ⟨markets, next⟩
    · rw [hreply] at h
      cases h
      exact hcandidates
    · rw [hreply] at h
      cases h
    · rw [hreply] at h
      cases h
    · have hpage := hpages i (by simp) markets next hreply
      rw [hreply] at h
      dsimp only at h
      rcases hscan : config.scanPage db closeCutoff candidates markets with e | ⟨scanned, _ | _⟩
      · rw [hscan] at h
        cases h
      · have hscanned := scanPage_forall hscan hcandidates hpage
        rw [hscan] at h
        dsimp only at h
        split_ifs at h
        · cases h
          exact hscanned
        · refine ih h hscanned fun j hj => hpages j ?_
          rwa [← Nat.add_right_comm, Nat.add_assoc] at hj
      · have hscanned := scanPage_forall hscan hcandidates hpage
        rw [hscan] at h
        cases h
        exact hscanned

theorem resolveMarkets_fresh {t : Tick} {resolved : List Resolved}
    (h : config.resolveMarkets db t = .ok resolved) :
    ∀ r ∈ resolved, config.wasRecentlySignalled db r.market.ticker r.checkedAt = false := by
  unfold DiscoveryConfig.resolveMarkets at h
  split_ifs at h
  · exact fetchTickers_fresh h
  · cases hfound : (config.discover db t.now t.pages).outcome with
    | error e =>
      rw [hfound] at h
      cases h
    | ok found =>
      rw [hfound] at h
      cases h
      intro r hr
      obtain ⟨m, hm, rfl⟩ := List.mem_map.mp hr
      have hpasses := discoverPages_forall hfound (List.forall_mem_nil _) (fun _ _ _ _ _ _ _ h => h)
      exact passes_fresh (hpasses m hm)

/-- A recorded call is out of the throttle's reach when its ticker is not recently signalled. -/
theorem spaced_of_records {call : LlmCall} {now : Time} (hrecords : db.Records call)
    (hfresh : config.wasRecentlySignalled db call.ticker now = false) :
    config.minBetween ≤ now - call.calledAt := by
  obtain ⟨row, hrow, hticker, hstrategy, hcreated⟩ := hrecords
  have hold : ¬ now - config.minBetween ≤ row.createdAt := by
    intro hrecent
    have hthrottled : config.wasRecentlySignalled db call.ticker now = true :=
      List.any_eq_true.mpr ⟨row, hrow, decide_eq_true ⟨hticker, hstrategy, hrecent⟩⟩
    exact Bool.false_ne_true (hfresh.symm.trans hthrottled)
  have hless := not_le.mp hold
  linarith

end Fresh

section Steps
variable {cfg : Config} {config : DiscoveryConfig} {assessor : Assessor} {s s' : Throttled}

/-- The ways a step can go. -/
inductive ThrottleView (cfg : Config) (config : DiscoveryConfig) (assessor : Assessor)
    (s : Throttled) : ThrottleStep → Throttled → Prop
  | meanwhile (m : Meanwhile) :
      ThrottleView cfg config assessor s (.meanwhile m) { s with agent := m.run s.agent }
  | unresolved {t : Tick} {e : DiscoveryError}
      (hresolved : config.resolveMarkets s.agent.db t = .error e) :
      ThrottleView cfg config assessor s (.tick t) s
  | raises {t : Tick} {resolved : List Resolved} {e : PyError}
      (hresolved : config.resolveMarkets s.agent.db t = .ok resolved)
      (horder : ∀ item ∈ t.items resolved, item.checkedAt ≤ item.promptNow)
      (hsignals : generateSignals assessor ((t.items resolved).map TickItem.toAssessment) =
        .error e) :
      ThrottleView cfg config assessor s (.tick t)
        { s with calls := s.calls ++ tickCalls config assessor s.agent.db t }
  | emits {t : Tick} {resolved : List Resolved} {signals : List Signal}
      (hfetches : t.fetches.map TickerFetch.ticker = config.tickers)
      (hresolved : config.resolveMarkets s.agent.db t = .ok resolved)
      (horder : ∀ item ∈ t.items resolved, item.checkedAt ≤ item.promptNow)
      (hsignals : generateSignals assessor ((t.items resolved).map TickItem.toAssessment) =
        .ok signals) :
      ThrottleView cfg config assessor s (.tick t)
        ⟨handleSignals cfg t.handlings 0 s.agent signals,
          s.calls ++ tickCalls config assessor s.agent.db t⟩

theorem throttleStep_view {l : ThrottleStep} (h : throttleStep cfg config assessor s l = some s') :
    ThrottleView cfg config assessor s l s' := by
  cases l with
  | meanwhile m =>
    cases h
    exact .meanwhile m
  | tick t =>
    unfold throttleStep at h
    dsimp only at h
    split_ifs at h with hfetches
    cases hresolved : config.resolveMarkets s.agent.db t with
    | error e =>
      rw [hresolved] at h
      cases h
      exact .unresolved hresolved
    | ok resolved =>
      rw [hresolved] at h
      dsimp only at h
      split_ifs at h with hall
      have horder : ∀ item ∈ t.items resolved, item.checkedAt ≤ item.promptNow :=
        fun item hitem => of_decide_eq_true (List.all_eq_true.mp hall item hitem)
      have hcalls : tickCalls config assessor s.agent.db t =
          llmCalls assessor ((t.items resolved).map TickItem.toAssessment) := by
        rw [tickCalls, hresolved]
      rw [← hcalls] at h
      cases hsignals : generateSignals assessor ((t.items resolved).map TickItem.toAssessment) with
      | error e =>
        rw [hsignals] at h
        cases h
        exact .raises hresolved horder hsignals
      | ok signals =>
        rw [hsignals] at h
        cases h
        exact .emits hfetches hresolved horder hsignals

theorem tickCalls_fresh {t : Tick} {resolved : List Resolved}
    (hresolved : config.resolveMarkets s.agent.db t = .ok resolved)
    (horder : ∀ item ∈ t.items resolved, item.checkedAt ≤ item.promptNow) :
    ∀ call ∈ tickCalls config assessor s.agent.db t, ∃ checkedAt ≤ call.calledAt,
      config.wasRecentlySignalled s.agent.db call.ticker checkedAt = false := by
  intro call hcall
  rw [tickCalls, hresolved] at hcall
  obtain ⟨asked, hasked, rfl⟩ := mem_llmCalls hcall
  obtain ⟨item, hitem, rfl⟩ := List.mem_map.mp hasked
  have hchecked := horder item hitem
  obtain ⟨i, hi, rfl⟩ := List.mem_mapIdx.mp hitem
  exact ⟨_, hchecked, resolveMarkets_fresh hresolved _ (List.getElem_mem hi)⟩

theorem throttleStep_calls {l : ThrottleStep} (h : throttleStep cfg config assessor s l = some s') :
    (∃ m, l = .meanwhile m ∧ s'.calls = s.calls) ∨
      ∃ t, l = .tick t ∧ s'.calls = s.calls ++ tickCalls config assessor s.agent.db t ∧
        ∀ call ∈ tickCalls config assessor s.agent.db t, ∃ checkedAt ≤ call.calledAt,
          config.wasRecentlySignalled s.agent.db call.ticker checkedAt = false := by
  cases throttleStep_view h with
  | meanwhile m => exact .inl ⟨m, rfl, rfl⟩
  | @unresolved t e hresolved =>
    have hnone : tickCalls config assessor s.agent.db t = [] := by rw [tickCalls, hresolved]
    refine .inr ⟨t, rfl, ?_⟩
    rw [hnone, List.append_nil]
    exact ⟨rfl, List.forall_mem_nil _⟩
  | raises hresolved horder hsignals =>
    exact .inr ⟨_, rfl, rfl, tickCalls_fresh hresolved horder⟩
  | emits hfetches hresolved horder hsignals =>
    exact .inr ⟨_, rfl, rfl, tickCalls_fresh hresolved horder⟩

theorem spaced_append_iff {earlier later : List LlmCall} :
    Spaced config (earlier ++ later) ↔ Spaced config earlier ∧ Spaced config later ∧
      ∀ first ∈ earlier, ∀ second ∈ later, first.ticker = second.ticker →
        config.minBetween ≤ second.calledAt - first.calledAt :=
  List.pairwise_append

end Steps

def lowConfidence (calledAt : Time) : Tick where
  now := calledAt
  fetches := [⟨"FED", calledAt, .ok (halfMarket "FED"), fun _ h => Except.ok.inj h ▸ rfl⟩]
  pages _ := .error (.other "no page")
  answers _ := ⟨calledAt, .ok (.obj [("probability", .float .one), ("confidence", .float .zero)]),
    calledAt⟩
  handlings _ := ⟨.nothing, marketUnreachable⟩

def fedThrottle : DiscoveryConfig where
  tickers := ["FED"]
  categories := []
  maxPerTick := 5
  minVolume := 0
  minHoursToClose := 0
  discoveryMaxPages := 1
  minBetween := 1800000000
  lower := id

end KalshiAgent
