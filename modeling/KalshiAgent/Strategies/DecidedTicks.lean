import KalshiAgent.Strategies.Throttle

/-! Ticks whose LLM calls all leave a decision. The throttle then finds each of them, and the calls
for one ticker are the spacing apart. -/

namespace KalshiAgent
open Execution

def Assessment.isOpen (item : Assessment) : Bool :=
  item.market.active &&
    (PriceText.given item.market.yesAskDollars && PriceText.given item.market.noAskDollars)

structure Clears (assessor : Assessor) (scores : Scores) (yesAsk noAsk : Decimal) : Prop where
  fit : ScoresFit assessor scores yesAsk noAsk
  prob : scores.prob.inUnit = true
  conf : scores.conf.inUnit = true
  confident : assessor.minConfidence.le scores.conf.toDecimal = true
  edge : ∀ yes no, yesEdge scores.prob yesAsk = .ok yes → noEdge scores.prob noAsk = .ok no →
    assessor.minEdge.le yes = true ∨ assessor.minEdge.le no = true

/-- The prompt for the market can be written, and what the LLM answers clears the thresholds. -/
def Decisive (assessor : Assessor) (item : Assessment) : Prop :=
  ∃ yesAsk noAsk resp scores, item.market.yesAskDollars = some (.decimal yesAsk) ∧
    item.market.noAskDollars = some (.decimal noAsk) ∧ Promptable item.market yesAsk ∧
    item.reply = .ok resp ∧ readScores assessor resp = .ok scores ∧
    Clears assessor scores yesAsk noAsk

/-- The executor's clocks are not behind the LLM call for the market, and no exception escapes the
handling of a signal for it that has not expired. -/
structure Persists (assessor : Assessor) (item : Assessment) (env : Awaits) : Prop where
  later : ∀ time ∈ env.clocks, item.promptNow ≤ time
  answered : ∀ signal : Signal, signal.marketTicker = item.market.ticker →
    signal.validUntil = item.signalNow + assessor.ttl → signal.isExpired env.entered = false →
      Answered signal env

/-- The condition on the markets of a tick that are open with both asks: no ticker comes twice, every
answer clears the thresholds, and every signal's turn at the executor leaves its decision. -/
structure Decides (assessor : Assessor) (t : Tick) (markets : List Assessment) : Prop where
  once : (markets.map fun item => item.market.ticker).Nodup
  decisive : ∀ item ∈ markets, Decisive assessor item
  persists : ∀ k item, markets[k]? = some item → Persists assessor item (t.handlings k).awaits

def StepDecides (config : DiscoveryConfig) (assessor : Assessor) (s : Throttled) :
    ThrottleStep → Prop
  | .meanwhile _ => True
  | .tick t => ∀ resolved, config.resolveMarkets s.agent.db t = .ok resolved →
      Decides assessor t (((t.items resolved).map TickItem.toAssessment).filter Assessment.isOpen)

section Decided
variable {cfg : Config} {config : DiscoveryConfig} {assessor : Assessor} {item : Assessment}
  {items : List Assessment} {signals : List Signal} {agent : Agent} {db db' : Db} {call : LlmCall}

structure Stamped (assessor : Assessor) (item : Assessment) (signal : Signal) : Prop where
  ticker : signal.marketTicker = item.market.ticker
  strategy : signal.strategyName = strategyName
  expiry : signal.validUntil = item.signalNow + assessor.ttl

theorem makeSignal_stamped {scores : Scores} {side : Side} {signal : Signal}
    (h : makeSignal assessor item scores side = .ok signal) : Stamped assessor item signal := by
  unfold makeSignal at h
  split at h
  · split_ifs at h
    cases h
    exact ⟨rfl, rfl, rfl⟩
  · cases h

theorem Clears.assessed {scores : Scores} {yesAsk noAsk : Decimal}
    (h : Clears assessor scores yesAsk noAsk) :
    ∃ signal, assessScores assessor item scores yesAsk noAsk = .ok (some signal) ∧
      Stamped assessor item signal := by
  obtain ⟨r, hr⟩ := (@assessScores_ok_iff assessor scores yesAsk noAsk item).mpr h.fit
  obtain ⟨yes, no, side, hyes, hno, hside, hyesFour, hnoFour, hresult⟩ := assessScores_ok.mp hr
  cases side with
  | some side =>
    obtain ⟨signal, hsignal, rfl⟩ := hresult
    exact ⟨signal, hr, makeSignal_stamped hsignal⟩
  | none =>
    -- no gate is left that could have stopped the signal
    obtain ⟨hminConf, hnumbers⟩ := signalSide_ok_iff.mp ⟨none, hside⟩ h.prob h.conf
    obtain ⟨hminEdge, hyesNan, hnoNan⟩ := hnumbers h.confident
    rw [signalSide_eq h.prob h.conf hminConf h.confident hminEdge hyesNan hnoNan] at hside
    have hedge := h.edge yes no (trapped_ok_iff.mpr hyes) (noEdge_eq _ _ ▸ trapped_ok_iff.mpr hno)
    split_ifs at hside with hbest hlow
    · cases hside
    · cases hside
    · rcases hedge with hyesEdge | hnoEdge
      · rcases Decimal.total hyesNan hnoNan with hle | hge
        · exact absurd (Decimal.le_of_le_of_le hyesEdge hle) hlow
        · exact absurd (Bool.and_eq_true_iff.mpr ⟨hyesEdge, hge⟩) hbest
      · exact absurd hnoEdge hlow

theorem Decisive.assessed (hopen : item.isOpen = true) (h : Decisive assessor item) :
    ∃ signal, assess assessor item = .ok (some signal) ∧ Stamped assessor item signal := by
  obtain ⟨yesAsk, noAsk, resp, scores, hyesAsk, hnoAsk, hprompt, hreply, hscores, hclears⟩ := h
  obtain ⟨signal, hsignal, hstamped⟩ :
      ∃ signal, assessScores assessor item scores yesAsk noAsk = .ok (some signal) ∧
        Stamped assessor item signal := hclears.assessed
  refine ⟨signal, ?_, hstamped⟩
  have hgates : (item.market.active && (PriceText.given item.market.yesAskDollars &&
      PriceText.given item.market.noAskDollars)) = true := hopen
  rw [assess_ok, if_pos hgates]
  refine ⟨yesAsk, noAsk, hyesAsk, hnoAsk, (userPrompt_ok_iff hyesAsk).mpr hprompt, ?_⟩
  rw [assessReply, hreply]
  dsimp only
  rw [hscores]
  exact hsignal

theorem Decisive.llmCall (hopen : item.isOpen = true) (h : Decisive assessor item) :
    llmCall item = some ⟨item.market.ticker, item.promptNow⟩ := by
  obtain ⟨yesAsk, noAsk, _, _, hyesAsk, hnoAsk, hprompt, _⟩ := h
  obtain ⟨prompt, hprompt⟩ := (@userPrompt_ok_iff _ item.promptNow _ hyesAsk).mpr hprompt
  obtain ⟨hactive, hgiven⟩ := Bool.and_eq_true_iff.mp hopen
  have hprompted : prompted item = .ok (some (yesAsk, noAsk)) := by
    rw [prompted, hactive, hgiven, read_ok_iff.mpr hyesAsk, read_ok_iff.mpr hnoAsk, hprompt]
    rfl
  rw [KalshiAgent.llmCall, hprompted]

theorem assess_closed (hclosed : item.isOpen = false) :
    assess assessor item = .ok none ∧ llmCall item = none := by
  unfold Assessment.isOpen at hclosed
  have hnone : assess assessor item = .ok none := by
    rw [assess_ok, if_neg (Bool.eq_false_iff.mp hclosed)]
  refine ⟨hnone, ?_⟩
  unfold llmCall prompted
  cases hactive : item.market.active with
  | false => rfl
  | true =>
    rw [hactive, Bool.true_and] at hclosed
    rw [hclosed]
    rfl

/-- Where every answer clears the thresholds, the markets that are open with both asks are those that
the LLM is called for, and each has its signal. -/
theorem decisive_signals (h : ∀ item ∈ items.filter Assessment.isOpen, Decisive assessor item) :
    llmCalls assessor items =
        (items.filter Assessment.isOpen).map (fun item => ⟨item.market.ticker, item.promptNow⟩) ∧
      ∃ signals, generateSignals assessor items = .ok signals ∧
        List.Forall₂ (Stamped assessor) (items.filter Assessment.isOpen) signals := by
  induction items with
  | nil => exact ⟨rfl, [], rfl, .nil⟩
  | cons item items ih =>
    cases hopen : item.isOpen with
    | false =>
      obtain ⟨hassess, hcall⟩ := @assess_closed assessor item hopen
      rw [List.filter_cons_of_neg (Bool.not_eq_true _ ▸ hopen)] at h ⊢
      obtain ⟨hcalls, signals, hsignals, hstamped⟩ := ih h
      refine ⟨?_, signals, ?_, hstamped⟩
      · rw [llmCalls, hassess, hcall, ← hcalls]
        rfl
      · rw [generateSignals, hassess, hsignals]
        rfl
    | true =>
      rw [List.filter_cons_of_pos hopen] at h ⊢
      obtain ⟨hitem, hitems⟩ := List.forall_mem_cons.mp h
      obtain ⟨signal, hassess, hfirst⟩ := hitem.assessed hopen
      obtain ⟨hcalls, signals, hsignals, hstamped⟩ := ih hitems
      refine ⟨?_, signal :: signals, ?_, .cons hfirst hstamped⟩
      · rw [llmCalls, hassess, hitem.llmCall hopen, List.map_cons, ← hcalls]
        rfl
      · rw [generateSignals, hassess, hsignals]
        rfl

theorem Db.Records.later {rows : List Decision} (h : db.Records call)
    (hgrows : db'.decisions = db.decisions ++ rows) :
    db'.Records call := by
  obtain ⟨row, hrow, hcall⟩ := h
  exact ⟨row, hgrows ▸ List.mem_append_left rows hrow, hcall⟩

theorem handleSignal_records {signal : Signal} {env : Awaits} (hstamped : Stamped assessor item signal)
    (h : Persists assessor item env) :
    (handleSignal cfg agent signal env).db.Records ⟨item.market.ticker, item.promptNow⟩ := by
  obtain ⟨rows, hrows, hdated⟩ := (handleSignal_view cfg agent signal env).logsAt
  have haudited := (handleSignal_audited_iff cfg agent signal env).mpr
    (h.answered signal hstamped.ticker hstamped.expiry)
  obtain ⟨row, hnew, hof⟩ : ∃ row : Decision, (handleSignal cfg agent signal env).db.decisions =
      agent.db.decisions ++ [row] ∧ row.IsOf signal := by
    rcases haudited with ⟨row, hnew, hof, _⟩ | ⟨row, _, hnew, hof, _⟩
    · exact ⟨row, hnew, hof⟩
    · exact ⟨row, hnew, hof⟩
  obtain rfl := List.append_cancel_left (hrows.symm.trans hnew)
  refine ⟨row, ?_, hof.marketTicker.trans hstamped.ticker, hof.strategy.trans hstamped.strategy, ?_⟩
  · rw [hnew]
    exact List.mem_append_right _ (List.mem_singleton_self row)
  · exact h.later _ (hdated row (List.mem_singleton_self row))

theorem handleSignals_grows (cfg : Config) (handlings : ℕ → Handling) (i : ℕ) (agent : Agent)
    (signals : List Signal) :
    ∃ rows, (handleSignals cfg handlings i agent signals).db.decisions =
      agent.db.decisions ++ rows := by
  induction signals generalizing i agent with
  | nil => exact ⟨[], (List.append_nil _).symm⟩
  | cons signal signals ih =>
    obtain ⟨later, hlater⟩ := ih (i + 1)
      (handleSignal cfg ((handlings i).waiting.run agent) signal (handlings i).awaits)
    obtain ⟨rows, hrows, _⟩ :=
      (handleSignal_view cfg ((handlings i).waiting.run agent) signal (handlings i).awaits).logsAt
    refine ⟨rows ++ later, ?_⟩
    rw [handleSignals, hlater, hrows, ((handlings i).waiting.keepsAudit agent).1, List.append_assoc]

theorem handleSignals_records {handlings : ℕ → Handling} {i : ℕ}
    (hstamped : List.Forall₂ (Stamped assessor) items signals)
    (h : ∀ k item, items[k]? = some item → Persists assessor item (handlings (i + k)).awaits) :
    ∀ item ∈ items, (handleSignals cfg handlings i agent signals).db.Records
      ⟨item.market.ticker, item.promptNow⟩ := by
  induction hstamped generalizing i agent with
  | nil => exact List.forall_mem_nil _
  | cons hfirst hrest ih =>
    refine List.forall_mem_cons.mpr ⟨?_, ?_⟩
    · obtain ⟨rows, hrows⟩ := handleSignals_grows cfg handlings (i + 1) _ _
      exact (handleSignal_records hfirst (h 0 _ rfl)).later hrows
    · refine ih fun k item hitem => ?_
      have hnext := h (k + 1) item hitem
      rwa [← Nat.add_assoc, Nat.add_right_comm] at hnext

end Decided

structure Recorded (config : DiscoveryConfig) (s : Throttled) : Prop where
  spaced : Spaced config s.calls
  recorded : ∀ call ∈ s.calls, s.agent.db.Records call

section Run
variable {cfg : Config} {config : DiscoveryConfig} {assessor : Assessor} {s s' : Throttled}
  {l : ThrottleStep} {t : Tick}

theorem throttleStep_grows (h : throttleStep cfg config assessor s l = some s') :
    ∃ rows, s'.agent.db.decisions = s.agent.db.decisions ++ rows := by
  have hsame : s.agent.db.decisions = s.agent.db.decisions ++ [] := (List.append_nil _).symm
  cases throttleStep_view h with
  | meanwhile m => exact ⟨[], (m.keepsAudit s.agent).1.trans hsame⟩
  | unresolved hresolved => exact ⟨[], hsame⟩
  | raises hresolved horder hsignals => exact ⟨[], hsame⟩
  | @emits t _ signals hfetches hresolved horder hsignals =>
    exact handleSignals_grows cfg t.handlings 0 s.agent signals

theorem StepDecides.once (h : StepDecides config assessor s (.tick t)) :
    Spaced config (tickCalls config assessor s.agent.db t) := by
  unfold tickCalls
  cases hresolved : config.resolveMarkets s.agent.db t with
  | error e => exact List.Pairwise.nil
  | ok resolved =>
    have hdecides := h resolved hresolved
    dsimp only
    rw [(decisive_signals hdecides.decisive).1]
    refine List.pairwise_map.mpr ((List.pairwise_map.mp hdecides.once).imp fun hne => ?_)
    exact fun hsame => absurd hsame hne

theorem StepDecides.records (h : StepDecides config assessor s (.tick t))
    (hstep : throttleStep cfg config assessor s (.tick t) = some s') :
    ∀ call ∈ tickCalls config assessor s.agent.db t, s'.agent.db.Records call := by
  intro call hcall
  cases throttleStep_view hstep with
  | unresolved hresolved =>
    rw [tickCalls, hresolved] at hcall
    exact absurd hcall List.not_mem_nil
  | raises hresolved horder hraises =>
    obtain ⟨_, _, hsignals, _⟩ := decisive_signals (h _ hresolved).decisive
    cases hraises.symm.trans hsignals
  | @emits _ resolved emitted hfetches hresolved horder hemitted =>
    have hdecides := h resolved hresolved
    obtain ⟨hcalls, signals, hsignals, hstamped⟩ := decisive_signals hdecides.decisive
    obtain rfl : signals = emitted := Except.ok.inj (hsignals.symm.trans hemitted)
    rw [tickCalls, hresolved] at hcall
    dsimp only at hcall
    rw [hcalls] at hcall
    obtain ⟨item, hitem, rfl⟩ := List.mem_map.mp hcall
    refine handleSignals_records hstamped (fun k item hitem => ?_) item hitem
    rw [Nat.zero_add]
    exact hdecides.persists k item hitem

theorem Recorded.step (h : Recorded config s) (hdecides : StepDecides config assessor s l)
    (hstep : throttleStep cfg config assessor s l = some s') : Recorded config s' := by
  obtain ⟨rows, hgrows⟩ := throttleStep_grows hstep
  have hkept : ∀ call ∈ s.calls, s'.agent.db.Records call :=
    fun call hcall => (h.recorded call hcall).later hgrows
  obtain ⟨m, rfl, hcalls⟩ | ⟨t, rfl, hcalls, hfresh⟩ := throttleStep_calls hstep
  · constructor
    · rw [hcalls]
      exact h.spaced
    · rw [hcalls]
      exact hkept
  · constructor
    · rw [hcalls, spaced_append_iff]
      refine ⟨h.spaced, hdecides.once, fun earlier hearlier call hcall hticker => ?_⟩
      -- the earlier call's decision is what the throttle of the later one has not found
      obtain ⟨checkedAt, hchecked, hthrottle⟩ := hfresh call hcall
      have hfar := spaced_of_records (h.recorded earlier hearlier) (hticker ▸ hthrottle)
      linarith
    · rw [hcalls]
      exact List.forall_mem_append.mpr ⟨hkept, hdecides.records hstep⟩

end Run

def certain (calledAt : Time) : Tick :=
  { lowConfidence calledAt with
    answers := fun _ =>
      ⟨calledAt, .ok (.obj [("probability", .float .one), ("confidence", .float .one)]), calledAt⟩
    handlings := fun _ => ⟨.nothing, { marketUnreachable with
      entered := calledAt
      market := .ok ⟨none, some "active", some (.decimal (1 / 2)), some (.decimal (1 / 2))⟩
      marketClock := ⟨calledAt, 0⟩
      checked := ⟨calledAt, 0⟩
      placed := ⟨calledAt, 0⟩ }⟩ }

def certainItem (calledAt : Time) : Assessment where
  market := halfMarket "FED"
  promptNow := calledAt
  reply := .ok (.obj [("probability", .float .one), ("confidence", .float .one)])
  signalNow := calledAt

theorem certainItem_decisive (calledAt : Time) : Decisive plainAssessor (certainItem calledAt) := by
  have hyes : yesEdge .one (.finite (50 / 100)) = .ok (.finite (50 / 100)) := by decide +kernel
  have hyesFits : defaultContext.Fits (-4) PyFloat.one.toDecimal (.finite (50 / 100)) :=
    (Decimal.quantize_sub_iff (by decide) (by decide)).mp
      ⟨.finite (50 / 100), .finite (50 / 100), by decide +kernel, by decide +kernel⟩
  have hnoFits : defaultContext.Fits (-4) PyFloat.one.complement (.finite (50 / 100)) :=
    (Decimal.quantize_sub_iff (by decide) (by decide)).mp
      ⟨.finite (-50 / 100), .finite (-50 / 100), by decide +kernel, by decide +kernel⟩
  have hclears : Clears plainAssessor ⟨.one, .one, ""⟩ (.finite (50 / 100)) (.finite (50 / 100)) := by
    constructor
    · exact ⟨hyesFits, hnoFits, fun _ _ => ⟨rfl, fun _ => ⟨rfl, rfl, rfl⟩⟩⟩
    · rfl
    · rfl
    · decide +kernel
    · intro yes no hedge _
      cases hedge.symm.trans hyes
      exact .inl (by decide +kernel)
  have hadds : defaultContext.Adds (.finite (49 / 100)) (.finite (50 / 100)) :=
    (Decimal.add_ok_iff (by decide)).mp ⟨.finite (99 / 100), by decide +kernel⟩
  have hprompt : Promptable (halfMarket "FED") (.finite (50 / 100)) :=
    ⟨fun _ => ⟨.finite (49 / 100), rfl, hadds⟩, fun _ h => nomatch h⟩
  exact ⟨_, _, _, ⟨.one, .one, ""⟩, rfl, rfl, hprompt, rfl, rfl, hclears⟩

theorem certain_persists (calledAt : Time) (k : ℕ) :
    Persists plainAssessor (certainItem calledAt) ((certain calledAt).handlings k).awaits := by
  constructor
  · intro time htime
    simp only [Awaits.clocks, certain, List.mem_cons, List.not_mem_nil, or_false, or_self] at htime
    exact htime.ge
  · intro signal _ _ _
    have hread : priceStrToDecimal (.decimal (1 / 2)) ≠ none := by decide
    constructor
    · intro message h
      cases h
    · intro market ask hmarket _ hask
      cases hmarket
      cases hside : signal.side with
      | yes =>
        rw [hside] at hask
        cases hask
        exact hread
      | no =>
        rw [hside] at hask
        cases hask
        exact hread
    · intro _
      right
      intro h
      cases h

theorem certain_decides (s : Throttled) (calledAt : Time) :
    StepDecides fedThrottle plainAssessor s (.tick (certain calledAt)) := by
  intro resolved hresolved
  have hcases : resolved = [] ∨ resolved = [⟨halfMarket "FED", calledAt⟩] := by
    have hfetched : (if fedThrottle.wasRecentlySignalled s.agent.db "FED" calledAt then .ok []
        else .ok [⟨halfMarket "FED", calledAt⟩] : Except DiscoveryError (List Resolved)) =
          .ok resolved := hresolved
    split_ifs at hfetched
    · exact .inl (Except.ok.inj hfetched).symm
    · exact .inr (Except.ok.inj hfetched).symm
  rcases hcases with rfl | rfl
  · exact ⟨List.nodup_nil, List.forall_mem_nil _, fun k item h => nomatch h⟩
  · have hopen : (certainItem calledAt).isOpen = true := by
      have hgates : ((halfMarket "FED").active && (PriceText.given (halfMarket "FED").yesAskDollars &&
          PriceText.given (halfMarket "FED").noAskDollars)) = true := by decide +kernel
      exact hgates
    have hmarkets : (((certain calledAt).items [⟨halfMarket "FED", calledAt⟩]).map
        TickItem.toAssessment).filter Assessment.isOpen = [certainItem calledAt] :=
      List.filter_cons_of_pos hopen
    rw [hmarkets]
    refine ⟨List.nodup_singleton _, List.forall_mem_singleton.mpr (certainItem_decisive calledAt), ?_⟩
    intro k item hitem
    obtain rfl := List.mem_singleton.mp (List.mem_of_getElem? hitem)
    exact certain_persists calledAt k

end KalshiAgent
