import KalshiAgent.Execution.WriteAhead

/-! The runaway guard over every run of one process. The check counts the attempts of the last
minute that the monitor remembers; the attempt it allows is recorded at a later reading. -/

namespace KalshiAgent
open Execution Window

structure Rated where
  service : Service
  -- the last reading of `time.monotonic`
  now : ℚ
  -- ghost state: the readings at which an attempt was recorded
  attempts : List ℚ

def Rated.start (agent : Agent) (now : ℚ) : Rated :=
  ⟨⟨{ agent with risk := .start }, none, 0, [], []⟩, now, []⟩

namespace ServiceStep

def readings : ServiceStep → List ℚ
  | .market _ clock => [clock.monotonic]
  | .bankroll _ clock later _ => [clock.monotonic, later.monotonic]
  | .reply _ clock => [clock.monotonic]
  | .wake clock => [clock.monotonic]
  | _ => []

/-- The process goes on, and the tasks beside the executor record no order attempt. -/
def Continues (agent : Agent) : ServiceStep → Prop
  | .others agent' => agent'.risk.orderTimestamps = agent.risk.orderTimestamps
  | .bankrollCrash _ _ _ _ => False
  | .crash => False
  | _ => True

instance (agent : Agent) (step : ServiceStep) : Decidable (step.Continues agent) := by
  cases step <;> unfold Continues <;> infer_instance

def attempt (service : Service) : ServiceStep → Option ℚ
  | .bankroll _ _ later _ => if service.holder.isSome then some later.monotonic else none
  | _ => none

end ServiceStep

def rateStep (cfg : Config) (s : Rated) (step : ServiceStep) : Option Rated :=
  if (s.now :: step.readings).Pairwise (· ≤ ·) ∧ step.Continues s.service.agent then
    (serviceStep cfg s.service step).map (fun service =>
      { service := service
        now := step.readings.getLast?.getD s.now
        attempts := s.attempts ++ (step.attempt service).toList })
  else none

structure PassesGates (cfg : Config) (kill : KillSwitch) (trade : Trade) : Prop where
  bankroll : 0 < trade.bankrollDollars
  kill : kill.isEngaged = false
  whitelisted : notWhitelisted cfg.markets trade = none

inductive FullMinute (cfg : Config) (s : Rated) : ServiceStep → Signal → Clock → Prop
  | check {bankroll currentPrice : ℚ} {category : Option String} {signal : Signal}
      {clock later : Clock} {clientOrderId : String}
      (hholder : s.service.holder = some (.fetchingBankroll signal currentPrice category))
      (hgates : PassesGates cfg s.service.agent.kill (signal.trade currentPrice category bankroll))
      (hfull : cfg.risk.maxOrdersPerMinute ≤ recent (clock.monotonic - 60) s.attempts) :
      FullMinute cfg s (.bankroll (.ok bankroll) clock later clientOrderId) signal clock

/-- A signal that finds the minute full is rejected, and leaves the switch engaged. -/
def StopsWhenFull (cfg : Config) (s : Rated) (step : ServiceStep) : Prop :=
  ∀ signal clock, FullMinute cfg s step signal clock → ∀ s', rateStep cfg s step = some s' →
    s'.service.agent.kill.isEngaged = true ∧
      Rejected signal s.service.agent.db s'.service.agent.db

/-- The condition: where a signal finds the minute full, the limit is no more than the monitor
remembers, or the loss limit stops the signal. -/
def Remembered (cfg : Config) (s : Rated) (step : ServiceStep) : Prop :=
  ∀ signal clock, FullMinute cfg s step signal clock →
    cfg.risk.maxOrdersPerMinute ≤ 200 ∨
      dailyRealizedPnlDollars cfg.displayTimezone s.service.agent.db clock ≤
        -cfg.risk.maxDailyLossUsd

def Rated.Buffers (s : Rated) : Prop :=
  Buffered 200 s.service.agent.risk.orderTimestamps s.attempts s.now

section Attempts
variable {cfg : Config} {agent agent' : Agent} {signal : Signal} {clock later : Clock}

theorem Agent.recordError_attempts (cfg : Config) (agent : Agent) (clock : Clock) :
    (agent.recordError cfg clock).risk.orderTimestamps = agent.risk.orderTimestamps := by
  unfold Agent.recordError KalshiAgent.recordError
  rfl

theorem quoteMarket_attempts (cfg : Config) (agent : Agent) (signal : Signal)
    (fetched : Except ClientError Market) (clock : Clock) :
    (quoteMarket cfg agent signal fetched clock).1.risk.orderTimestamps =
      agent.risk.orderTimestamps := by
  unfold quoteMarket
  cases fetched with
  | error e =>
    cases e with
    | api statusCode body => exact agent.recordError_attempts cfg clock
    | auth message => exact agent.recordError_attempts cfg clock
    | other message => rfl
  | ok market =>
    dsimp only
    split_ifs
    · cases truthy (market.ask signal.side) with
      | none => rfl
      | some ask =>
        dsimp only
        cases priceStrToDecimal ask <;> rfl
    · rfl

theorem recordOutcome_attempts (cfg : Config) (agent : Agent) (clientOrderId : String)
    (outcome : Except ClientError OrderResponse) (clock : Clock) :
    (recordOutcome cfg agent clientOrderId outcome clock).risk.orderTimestamps =
      agent.risk.orderTimestamps := by
  unfold recordOutcome
  cases outcome with
  | ok response => rfl
  | error e =>
    cases e with
    | api statusCode body => exact agent.recordError_attempts cfg clock
    | auth message => exact agent.recordError_attempts cfg clock
    | other message => rfl

theorem setPhase_attempts (cfg : Config) (s : Service) (request : OrderRequest) (clock : Clock)
    (phase : RequestPhase OrderResponse) :
    (s.setPhase cfg request clock phase).agent.risk.orderTimestamps =
      s.agent.risk.orderTimestamps := by
  cases phase with
  | finished outcome => exact recordOutcome_attempts cfg s.agent _ outcome clock
  | acquiring attempt lastExc | awaiting attempt lastExc | backingOff attempt lastExc
    | asleep attempt => rfl

variable {currentPrice bankroll : ℚ} {category : Option String} {clientOrderId : String}

theorem approve_none_attempts {fetched : Except ClientError ℚ}
    (h : approve cfg agent signal currentPrice category fetched clock later clientOrderId =
      (agent', none)) : agent'.risk.orderTimestamps = agent.risk.orderTimestamps := by
  unfold approve at h
  cases fetched with
  | error e =>
    cases h
    rfl
  | ok bankroll =>
    dsimp only at h
    split_ifs at h
    all_goals cases h
    all_goals rfl

theorem placeOrder_attempts {contracts : ℤ} {request : OrderRequest}
    (h : (agent', request) = placeOrder agent signal currentPrice contracts clientOrderId clock) :
    agent'.risk.orderTimestamps = pushTimestamp agent.risk.orderTimestamps clock.monotonic := by
  cases h
  exact agent.risk.recordOrderAttempt_orderTimestamps clock

theorem approve_engages_iff
    (hgates : PassesGates cfg agent.kill (signal.trade currentPrice category bankroll)) :
    (approve cfg agent signal currentPrice category (.ok bankroll) clock later
        clientOrderId).1.kill.isEngaged = true ↔
      cfg.risk.maxOrdersPerMinute ≤ ordersInLastMinute agent.risk clock ∨
        dailyRealizedPnlDollars cfg.displayTimezone agent.db clock ≤ -cfg.risk.maxDailyLossUsd := by
  have hsome : ¬ bankroll ≤ 0 := not_le.mpr hgates.bankroll
  rw [← checkTrade_engages_iff hgates.kill hgates.whitelisted]
  unfold approve
  dsimp only
  rw [if_neg hsome]
  split_ifs <;> exact Iff.rfl

theorem approve_some_gates {fetched : Except ClientError ℚ} {request : OrderRequest}
    (h : approve cfg agent signal currentPrice category fetched clock later clientOrderId =
      (agent', some request)) :
    ∃ bankroll, fetched = .ok bankroll ∧
      PassesGates cfg agent.kill (signal.trade currentPrice category bankroll) ∧
      agent'.kill.isEngaged = false := by
  obtain ⟨hkill, hsame, _⟩ := approve_some h
  unfold approve at h
  cases fetched with
  | error e => cases h
  | ok bankroll =>
    dsimp only at h
    split_ifs at h with hzero hallowed
    · cases h
    · cases h
    · exact ⟨bankroll, rfl, ⟨not_le.mp hzero, hkill, checkTrade_whitelisted hallowed⟩,
        hsame ▸ hkill⟩
    · cases h

theorem approve_rejects {next : Option OrderRequest}
    (h : approve cfg agent signal currentPrice category (.ok bankroll) clock later clientOrderId =
      (agent', next)) (hengaged : agent'.kill.isEngaged = true) :
    Rejected signal agent.db agent'.db := by
  cases next with
  | none => exact approve_none_rejected h
  | some request =>
    obtain ⟨_, _, _, hoff⟩ := approve_some_gates h
    exact absurd (hengaged.symm.trans hoff) Bool.false_ne_true.symm

end Attempts

section Steps
variable {cfg : Config} {s s' : Rated}

theorem serviceStep_attempts {s s' : Service} {step : ServiceStep}
    (h : serviceStep cfg s step = some s') (hcontinues : step.Continues s.agent) :
    (step.attempt s' = none ∧ s'.agent.risk.orderTimestamps = s.agent.risk.orderTimestamps) ∨
      ∃ signal currentPrice category fetched clock later clientOrderId request,
        step = .bankroll fetched clock later clientOrderId ∧
        s.holder = some (.fetchingBankroll signal currentPrice category) ∧
        approve cfg s.agent signal currentPrice category fetched clock later clientOrderId =
          (s'.agent, some request) ∧
        step.attempt s' = some later.monotonic ∧
        s'.agent.risk.orderTimestamps =
          pushTimestamp s.agent.risk.orderTimestamps later.monotonic := by
  cases serviceStep_rule h with
  | others agent hkeeps => exact .inl ⟨rfl, hcontinues⟩
  | enter signal now hholder =>
    refine .inl ⟨rfl, ?_⟩
    unfold preflight
    split_ifs <;> rfl
  | market signal fetched clock hholder =>
    exact .inl ⟨rfl, quoteMarket_attempts cfg s.agent signal fetched clock⟩
  | rejects signal currentPrice category fetched clock later clientOrderId agent hholder happrove =>
    exact .inl ⟨rfl, approve_none_attempts happrove⟩
  | places signal currentPrice category fetched clock later clientOrderId agent request hholder
      hfresh happrove =>
    obtain ⟨_, _, _, _, _, hplaced⟩ := approve_some happrove
    exact .inr ⟨_, _, _, _, _, later, _, request, rfl, hholder, happrove, rfl,
      placeOrder_attempts hplaced⟩
  | bankrollCrash => exact absurd hcontinues id
  | token request attempt lastExc hholder => exact .inl ⟨rfl, rfl⟩
  | reply request attempt lastExc reply clock hholder =>
    exact .inl ⟨rfl, setPhase_attempts cfg s request clock _⟩
  | wake request attempt lastExc clock hholder =>
    exact .inl ⟨rfl, setPhase_attempts cfg s request clock _⟩
  | crash => exact absurd hcontinues id

theorem rateStep_some {step : ServiceStep} (h : rateStep cfg s step = some s') :
    (s.now :: step.readings).Pairwise (· ≤ ·) ∧ step.Continues s.service.agent ∧
      serviceStep cfg s.service step = some s'.service ∧
      s'.now = step.readings.getLast?.getD s.now ∧
      s'.attempts = s.attempts ++ (step.attempt s'.service).toList := by
  unfold rateStep at h
  split_ifs at h with hgoes
  obtain ⟨service, hservice, rfl⟩ := Option.map_eq_some_iff.mp h
  exact ⟨hgoes.1, hgoes.2, hservice, rfl, rfl⟩

theorem now_le {step : ServiceStep} (hsorted : (s.now :: step.readings).Pairwise (· ≤ ·)) :
    s.now ≤ step.readings.getLast?.getD s.now := by
  cases hlast : step.readings.getLast? with
  | none => exact le_rfl
  | some t => exact List.rel_of_pairwise_cons hsorted (List.mem_of_getLast? hlast)

theorem Rated.Buffers.step {step : ServiceStep} (hI : s.Buffers)
    (h : rateStep cfg s step = some s') : s'.Buffers := by
  obtain ⟨hsorted, hcontinues, hservice, hnow, hattempts⟩ := rateStep_some h
  unfold Rated.Buffers at hI ⊢
  rcases serviceStep_attempts hservice hcontinues with
    ⟨hnone, hsame⟩ | ⟨_, _, _, _, _, later, _, _, rfl, _, _, hsome, hpushed⟩
  · rw [hnow, hattempts, hsame, hnone, Option.toList_none, List.append_nil]
    exact hI.wait (now_le hsorted)
  · rw [hnow, hattempts, hpushed, hsome, Option.toList_some]
    exact hI.push (now_le hsorted)

theorem Rated.Buffers.counted (hI : s.Buffers) (clock : Clock) :
    ordersInLastMinute s.service.agent.risk clock =
      min 200 (recent (clock.monotonic - 60) s.attempts) := hI.recent_eq _

theorem serviceStep_approve {s s' : Service} {signal : Signal} {currentPrice : ℚ}
    {category : Option String} {fetched : Except ClientError ℚ} {clock later : Clock}
    {clientOrderId : String}
    (hholder : s.holder = some (.fetchingBankroll signal currentPrice category))
    (h : serviceStep cfg s (.bankroll fetched clock later clientOrderId) = some s') :
    s'.agent = (approve cfg s.agent signal currentPrice category fetched clock later
      clientOrderId).1 := by
  cases serviceStep_rule h with
  | rejects _ _ _ _ _ _ _ agent hholder' happrove =>
    cases hholder.symm.trans hholder'
    rw [happrove]
  | places _ _ _ _ _ _ _ agent request hholder' hfresh happrove =>
    cases hholder.symm.trans hholder'
    rw [happrove]

theorem stopped_iff {signal : Signal} {clock : Clock} {step : ServiceStep} (hI : s.Buffers)
    (hfull : FullMinute cfg s step signal clock) (h : rateStep cfg s step = some s') :
    (s'.service.agent.kill.isEngaged = true ∧
        Rejected signal s.service.agent.db s'.service.agent.db) ↔
      cfg.risk.maxOrdersPerMinute ≤ 200 ∨
        dailyRealizedPnlDollars cfg.displayTimezone s.service.agent.db clock ≤
          -cfg.risk.maxDailyLossUsd := by
  obtain ⟨_, _, hservice, _⟩ := rateStep_some h
  cases hfull with
  | @check bankroll currentPrice category _ _ later clientOrderId hholder hgates hfull =>
    have hcount : cfg.risk.maxOrdersPerMinute ≤ ordersInLastMinute s.service.agent.risk clock ↔
        cfg.risk.maxOrdersPerMinute ≤ 200 := by
      rw [hI.counted]
      omega
    have hagent := serviceStep_approve hholder hservice
    have hengages : s'.service.agent.kill.isEngaged = true ↔
        cfg.risk.maxOrdersPerMinute ≤ 200 ∨
          dailyRealizedPnlDollars cfg.displayTimezone s.service.agent.db clock ≤
            -cfg.risk.maxDailyLossUsd := by
      rw [hagent, approve_engages_iff hgates, hcount]
    refine ⟨fun hstopped => hengages.mp hstopped.1, fun hcond => ?_⟩
    have hengaged := hengages.mpr hcond
    refine ⟨hengaged, ?_⟩
    rw [hagent] at hengaged ⊢
    exact approve_rejects rfl hengaged

theorem stopsWhenFull_iff_remembered {step : ServiceStep} (hI : s.Buffers)
    (h : rateStep cfg s step = some s') :
    StopsWhenFull cfg s step ↔ Remembered cfg s step := by
  constructor
  · intro hstops signal clock hfull
    exact (stopped_iff hI hfull h).mp (hstops signal clock hfull s' h)
  · intro hremembered signal clock hfull s₁ h₁
    cases h.symm.trans h₁
    exact (stopped_iff hI hfull h).mpr (hremembered signal clock hfull)

theorem limited_step {step : ServiceStep}
    (hlimited : Limited 60 cfg.risk.maxOrdersPerMinute s.attempts)
    (hstops : StopsWhenFull cfg s step) (h : rateStep cfg s step = some s') :
    Limited 60 cfg.risk.maxOrdersPerMinute s'.attempts := by
  obtain ⟨hsorted, hcontinues, hservice, _, hattempts⟩ := rateStep_some h
  rw [hattempts]
  rcases serviceStep_attempts hservice hcontinues with
    ⟨hnone, _⟩ | ⟨signal, _, _, _, clock, later, _, _, rfl, hholder, happrove, hsome, _⟩
  · rwa [hnone, Option.toList_none, List.append_nil]
  · rw [hsome, Option.toList_some]
    have hlater : clock.monotonic ≤ later.monotonic := by
      simp only [ServiceStep.readings, List.pairwise_cons] at hsorted
      exact hsorted.2.1 _ (List.mem_singleton.mpr rfl)
    refine hlimited.append (not_le.mp fun hfull => ?_) hlater
    obtain ⟨bankroll, rfl, hgates, hoff⟩ := approve_some_gates happrove
    have hstopped := (hstops signal clock (.check hholder hgates hfull) s' h).1
    exact absurd (hstopped.symm.trans hoff) Bool.false_ne_true.symm

end Steps

/-- In every run of a process: no minute has more attempts than the limit, and each signal that
finds the minute full is stopped, if and only if the monitor remembers what it has to count. -/
theorem runaway_guarded_iff (cfg : Config) (agent : Agent) (now : ℚ) (steps : List ServiceStep) :
    (AllStates (rateStep cfg) (fun s => Limited 60 cfg.risk.maxOrdersPerMinute s.attempts)
        (.start agent now) steps ∧
      AllSteps (rateStep cfg) (StopsWhenFull cfg) (.start agent now) steps) ↔
    0 ≤ cfg.risk.maxOrdersPerMinute ∧
      AllSteps (rateStep cfg) (Remembered cfg) (.start agent now) steps := by
  have hstart : (Rated.start agent now).Buffers := .nil 200 now
  have hsame : AllSteps (rateStep cfg) (StopsWhenFull cfg) (.start agent now) steps ↔
      AllSteps (rateStep cfg) (Remembered cfg) (.start agent now) steps :=
    allSteps_congr (fun s step s' hI h => hI.step h)
      (fun s step s' hI h => stopsWhenFull_iff_remembered hI h) hstart
  constructor
  · rintro ⟨hlimited, hstops⟩
    exact ⟨limited_nil_iff.mp hlimited.head, hsame.mp hstops⟩
  · rintro ⟨hnonneg, hremembered⟩
    have hstops := hsame.mpr hremembered
    refine ⟨allStates_of_allSteps ?_ (fun s h => h) (limited_nil_iff.mpr hnonneg) hstops, hstops⟩
    exact fun s step s' hlimited hstops h => limited_step hlimited hstops h

def manyOrders : Config :=
  { Config.example (.fixed 0) with
    risk := { (Config.example (.fixed 0)).risk with maxOrdersPerMinute := 201 } }

def orderAtZero (clientOrderId : String) : List ServiceStep :=
  [.enter buySignal 0, .market (.ok openMarket) ⟨0, 0⟩,
    .bankroll (.ok 100) ⟨0, 0⟩ ⟨0, 0⟩ clientOrderId, .token,
    .reply (.response 200 "" .wakes (.ok ⟨clientOrderId, "executed"⟩)) ⟨0, 0⟩]

structure Unstopped (n : ℕ) (s : Rated) : Prop where
  holder : s.service.holder = none
  kill : s.service.agent.kill = ⟨none⟩
  positions : s.service.agent.db.positions = .empty
  pnlDaily : s.service.agent.db.pnlDaily = .empty
  buffers : s.Buffers
  minted : ∀ id ∈ s.service.minted, id.length < n
  now : s.now = 0
  attempts : s.attempts = List.replicate n 0

def unaryId (n : ℕ) : String := String.ofList (List.replicate n '1')

def halfPrice : Trade := buySignal.trade (1 / 2) (some "economics") 100

theorem checkTrade_halfPrice {db : Db} {st : RiskState} (hpositions : db.positions = .empty)
    (hpnl : db.pnlDaily = .empty) (hcount : ordersInLastMinute st ⟨0, 0⟩ ≤ 200) :
    checkTrade manyOrders db ⟨none⟩ st ⟨0, 0⟩ halfPrice =
      (⟨none⟩, sizeTrade manyOrders .empty halfPrice) := by
  have hsize : sizeTrade manyOrders db halfPrice = sizeTrade manyOrders .empty halfPrice := by
    simp only [sizeTrade, openingDecision, currentTotalExposureDollars,
      currentPositionExposureDollars, hpositions]
    rfl
  have hloss : dailyRealizedPnlDollars manyOrders.displayTimezone db ⟨0, 0⟩ =
      dailyRealizedPnlDollars manyOrders.displayTimezone .empty ⟨0, 0⟩ := by
    simp only [dailyRealizedPnlDollars, realizedPnlSince, cumulativeRealizedPnl,
      snapshotBaselineAtOrBefore, latestSnapshot, hpositions, hpnl]
    rfl
  rw [← hsize]
  refine checkTrade_sizes rfl rfl ?_ ?_ (by decide +kernel)
  · have hlimit : manyOrders.risk.maxOrdersPerMinute = 201 := rfl
    omega
  · rw [hloss]
    decide +kernel

theorem approve_halfPrice {agent : Agent} (hkill : agent.kill = ⟨none⟩)
    (hpositions : agent.db.positions = .empty) (hpnl : agent.db.pnlDaily = .empty)
    (hcount : ordersInLastMinute agent.risk ⟨0, 0⟩ ≤ 200) (id : String) :
    ∃ agent' request, approve manyOrders agent buySignal (1 / 2) (some "economics") (.ok 100)
        ⟨0, 0⟩ ⟨0, 0⟩ id = (agent', some request) ∧ agent'.kill = ⟨none⟩ ∧
      agent'.db.positions = .empty ∧ agent'.db.pnlDaily = .empty := by
  obtain ⟨db, kill, risk⟩ := agent
  dsimp only at hkill hpositions hpnl hcount
  subst hkill
  have hcheck := checkTrade_halfPrice hpositions hpnl hcount
  have hallowed : (sizeTrade manyOrders .empty halfPrice).allowed = true := by decide +kernel
  have hsome : ¬ (100 : ℚ) ≤ 0 := by decide +kernel
  unfold halfPrice at hcheck hallowed
  obtain ⟨placed, hplaced⟩ : ∃ placed, placed = placeOrder ⟨db, ⟨none⟩, risk⟩ buySignal (1 / 2)
      (sizeTrade manyOrders .empty halfPrice).sizedContracts id ⟨0, 0⟩ := ⟨_, rfl⟩
  refine ⟨placed.1, placed.2, ?_, ?_⟩
  · rw [hplaced]
    simp only [approve, if_neg hsome, hcheck, hallowed, if_true]
    rfl
  · rw [hplaced]
    exact ⟨rfl, hpositions, hpnl⟩

theorem quoteMarket_openMarket (agent : Agent) :
    quoteMarket manyOrders agent buySignal (.ok openMarket) ⟨0, 0⟩ =
      (agent, some (1 / 2, some "economics")) := by
  have hopen : (openMarket.status.getD "").toLower ∈ ["active", "open"] := by decide +kernel
  have hask : truthy (openMarket.ask buySignal.side) = some (.decimal (1 / 2)) := by decide +kernel
  simp only [quoteMarket, hopen, not_true_eq_false, if_false, hask]
  rfl

theorem orderAtZero_unstopped {n : ℕ} {s : Rated} (h : Unstopped n s) :
    ∃ s', exec (rateStep manyOrders) s (orderAtZero (unaryId n)) = some s' ∧ Unstopped (n + 1) s' := by
  obtain ⟨⟨agent, holder, calls, minted, sent⟩, now, attempts⟩ := s
  obtain ⟨hholder, hkill, hpositions, hpnl, hbuffers, hminted, hnow, hattempts⟩ := h
  dsimp only at hholder hkill hpositions hpnl hminted hnow hattempts
  subst hholder hnow
  have hcount : ordersInLastMinute agent.risk ⟨0, 0⟩ ≤ 200 := by
    rw [hbuffers.counted ⟨0, 0⟩]
    exact min_le_left _ _
  have hnew : unaryId n ∉ minted := by
    intro hmem
    have hshort := hminted _ hmem
    rw [unaryId, String.length_ofList, List.length_replicate] at hshort
    exact lt_irrefl n hshort
  obtain ⟨agent', request, happrove, hkill', hpositions', hpnl'⟩ :=
    approve_halfPrice hkill hpositions hpnl hcount (unaryId n)
  have henter : rateStep manyOrders ⟨⟨agent, none, calls, minted, sent⟩, 0, attempts⟩
      (.enter buySignal 0) =
        some ⟨⟨agent, some (.fetchingMarket buySignal), calls + 1, minted, sent⟩, 0,
          attempts ++ []⟩ := rfl
  have hmarket : rateStep manyOrders
      ⟨⟨agent, some (.fetchingMarket buySignal), calls + 1, minted, sent⟩, 0, attempts ++ []⟩
      (.market (.ok openMarket) ⟨0, 0⟩) =
        some ⟨⟨agent, some (.fetchingBankroll buySignal (1 / 2) (some "economics")), calls + 1,
          minted, sent⟩, 0, attempts ++ [] ++ []⟩ := by
    simp only [rateStep, serviceStep, quoteMarket_openMarket]
    rfl
  have hbankroll : rateStep manyOrders
      ⟨⟨agent, some (.fetchingBankroll buySignal (1 / 2) (some "economics")), calls + 1, minted,
        sent⟩, 0, attempts ++ [] ++ []⟩
      (.bankroll (.ok 100) ⟨0, 0⟩ ⟨0, 0⟩ (unaryId n)) =
        some ⟨⟨agent', some (.ordering request .start), calls + 1, minted ++ [unaryId n], sent⟩, 0,
          attempts ++ [] ++ [] ++ [0]⟩ := by
    simp only [rateStep, serviceStep, if_neg hnew, happrove]
    rfl
  have hbuffers' := ((hbuffers.step henter).step hmarket).step hbankroll
  obtain ⟨s₄, htoken, h₄⟩ : ∃ s₄, rateStep manyOrders
      ⟨⟨agent', some (.ordering request .start), calls + 1, minted ++ [unaryId n], sent⟩, 0,
        attempts ++ [] ++ [] ++ [0]⟩ .token = some s₄ ∧ s₄ = _ := ⟨_, rfl, rfl⟩
  obtain ⟨s₅, hreply, h₅⟩ : ∃ s₅, rateStep manyOrders s₄
      (.reply (.response 200 "" .wakes (.ok ⟨unaryId n, "executed"⟩)) ⟨0, 0⟩) = some s₅ ∧ s₅ = _ := by
    rw [h₄]
    exact ⟨_, rfl, rfl⟩
  refine ⟨s₅, ?_, ?_⟩
  · simp only [orderAtZero, exec, henter, hmarket, hbankroll, htoken, hreply, Option.bind_some]
  · have hlast := (hbuffers'.step htoken).step hreply
    subst h₅
    refine ⟨rfl, hkill', hpositions', hpnl', hlast, ?_, rfl, ?_⟩
    · intro id hid
      rcases List.mem_append.mp hid with hold | hnew
      · exact (hminted id hold).trans (Nat.lt_succ_self n)
      · rw [List.mem_singleton.mp hnew, unaryId, String.length_ofList, List.length_replicate]
        exact Nat.lt_succ_self n
    · rw [List.replicate_succ', ← hattempts]
      simp [ServiceStep.attempt]

def burst (n : ℕ) : List ServiceStep := (List.range n).flatMap (fun i => orderAtZero (unaryId i))

theorem burst_unstopped (n : ℕ) :
    ∃ s, exec (rateStep manyOrders) (.start ⟨.empty, ⟨none⟩, .start⟩ 0) (burst n) = some s ∧
      Unstopped n s := by
  induction n with
  | zero =>
    refine ⟨_, rfl, rfl, rfl, rfl, rfl, .nil 200 0, ?_, rfl, rfl⟩
    exact fun _ h => absurd h List.not_mem_nil
  | succ n ih =>
    obtain ⟨s, hrun, hs⟩ := ih
    obtain ⟨s', horder, hs'⟩ := orderAtZero_unstopped hs
    refine ⟨s', ?_, hs'⟩
    rw [burst, List.range_succ, List.flatMap_append, List.flatMap_singleton, exec_append, ← burst,
      hrun, Option.bind_some, horder]

/-- The limit is 201, and 202 attempts are recorded at one reading. -/
theorem not_runawayGuarded :
    ¬ (AllStates (rateStep manyOrders)
          (fun s => Limited 60 manyOrders.risk.maxOrdersPerMinute s.attempts)
          (.start ⟨.empty, ⟨none⟩, .start⟩ 0) (burst 202) ∧
        AllSteps (rateStep manyOrders) (StopsWhenFull manyOrders)
          (.start ⟨.empty, ⟨none⟩, .start⟩ 0) (burst 202)) := by
  rintro ⟨hlimited, _⟩
  obtain ⟨s, hrun, hs⟩ := burst_unstopped 202
  have hcount := hlimited.last hrun 0
  have hall : within (60 : ℚ) 0 s.attempts = 202 := by
    rw [hs.attempts, within, List.countP_replicate]
    norm_num
  rw [hall] at hcount
  exact absurd hcount (by decide)

end KalshiAgent
