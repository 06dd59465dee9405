import KalshiAgent.Execution.Executor
import KalshiAgent.Fills.Polling
import KalshiAgent.Lib.Execution
import KalshiAgent.Safety.Reconciliation

/-! The error-spike halt over every run of one process. Each task that calls the exchange deals
with the exceptions of its own calls, and the executor alone records them with the monitor. -/

namespace KalshiAgent
open Execution Window

inductive ApiCall
  | marketFetch (signal : Signal)
  -- the strategy's own fetches: of a configured ticker, and of a page of open markets
  | tickerFetch (ticker : Ticker)
  | marketList (cursor : Option String)
  | orderSend (clientOrderId : String)
  | fillPoll (env : IngestEnv) (highWaterTs : Option ℤ) (listFills : ListFills)
  | reconciliation (source : String)
  | balance
  | recoveryList

def ClientError.caught : ClientError → Bool
  | .other _ => false
  | _ => true

namespace ApiCall

/-- The call is made and raises: a poll has ingested the pages before it. -/
def Raises (db : Db) (error : ClientError) : ApiCall → Prop
  | .fillPoll env highWaterTs listFills =>
    listFills.failure = some error ∧
      listFills.committed env ⟨db, 0, highWaterTs.getD 0⟩ = listFills.returned
  | _ => True

instance (db : Db) (error : ClientError) (call : ApiCall) : Decidable (call.Raises db error) := by
  cases call <;> unfold Raises <;> infer_instance

def handle (cfg : Config) (agent : Agent) (error : ClientError) (clock : Clock) : ApiCall → Agent
  | .marketFetch signal => (quoteMarket cfg agent signal (.error error) clock).1
  -- the strategy goes on without what it asked for, or the scheduler logs the exception
  | .tickerFetch _ => agent
  | .marketList _ => agent
  | .orderSend clientOrderId => recordOutcome cfg agent clientOrderId (.error error) clock
  | .fillPoll env highWaterTs listFills =>
    { agent with db := (fetchAndApply env agent.db highWaterTs (fun _ => listFills)).db }
  | .reconciliation source =>
    match reconcileInner source agent.db (.error error) with
    | .error _ => agent
    | .ok (db, _) => { agent with db := db }
  -- the provider falls back on what it knows or raises, the recovery returns or raises
  | .balance => agent
  | .recoveryList => agent

/-- The calls whose errors the code hands to `record_error`. -/
def recorded (error : ClientError) : ApiCall → Bool
  | .marketFetch _ => error.caught
  | .orderSend _ => error.caught
  | _ => false

end ApiCall

structure Failure where
  monotonic : ℚ
  recorded : Bool

structure Watched where
  agent : Agent
  -- the last reading of `time.monotonic`
  now : ℚ
  -- ghost state: every call that failed
  failures : List Failure

def Watched.start (agent : Agent) (now : ℚ) : Watched := ⟨{ agent with risk := .start }, now, []⟩

inductive WatchStep
  | fails (call : ApiCall) (error : ClientError) (clock : Clock)
  -- whatever else the service does
  | works (agent : Agent)
  | disengage
  | waits (monotonic : ℚ)

def watchStep (cfg : Config) (s : Watched) : WatchStep → Option Watched
  | .fails call error clock =>
    if s.now ≤ clock.monotonic ∧ call.Raises s.agent.db error then
      some {
        agent := call.handle cfg s.agent error clock
        now := clock.monotonic
        failures := s.failures ++ [⟨clock.monotonic, call.recorded error⟩] }
    else none
  | .works agent =>
    if agent.risk.errorTimestamps = s.agent.risk.errorTimestamps ∧
        (s.agent.kill.isEngaged = true → agent.kill.isEngaged = true) then
      some { s with agent := agent }
    else none
  | .disengage => some { s with agent := { s.agent with kill := s.agent.kill.disengage.1 } }
  | .waits monotonic => if s.now ≤ monotonic then some { s with now := monotonic } else none

def failuresBy (cfg : Config) (failures : List Failure) (monotonic : ℚ) : ℕ :=
  recent (monotonic - cfg.risk.errorSpikeWindowSeconds) (failures.map Failure.monotonic)

def recordedBy (cfg : Config) (failures : List Failure) (monotonic : ℚ) : ℕ :=
  failuresBy cfg (failures.filter Failure.recorded) monotonic

/-- With enough failures in the window, the switch is engaged. -/
def SpikeHalts (cfg : Config) (s : Watched) : Prop :=
  cfg.risk.errorSpikeThreshold ≤ failuresBy cfg s.failures s.now → s.agent.kill.isEngaged = true

instance (cfg : Config) (s : Watched) : Decidable (SpikeHalts cfg s) :=
  inferInstanceAs (Decidable (_ → _))

/-- The condition: a failure that fills the window while the switch is off is recorded, with
enough of those before it, and no more than the monitor remembers; and the switch is not disengaged
while the window is full. -/
def SpikeRecorded (cfg : Config) (s : Watched) : WatchStep → Prop
  | .fails call error clock =>
    let failures := s.failures ++ [⟨clock.monotonic, call.recorded error⟩]
    cfg.risk.errorSpikeThreshold ≤ failuresBy cfg failures clock.monotonic →
      s.agent.kill.isEngaged = false →
        call.recorded error = true ∧ cfg.risk.errorSpikeThreshold ≤ 200 ∧
          cfg.risk.errorSpikeThreshold ≤ recordedBy cfg failures clock.monotonic
  | .disengage => failuresBy cfg s.failures s.now < cfg.risk.errorSpikeThreshold
  | _ => True

namespace ApiCall
variable {cfg : Config} {agent : Agent} {error : ClientError} {clock : Clock} {call : ApiCall}

theorem handle_monitor (cfg : Config) (agent : Agent) (error : ClientError) (clock : Clock)
    (call : ApiCall) :
    let agent' := if call.recorded error then agent.recordError cfg clock else agent
    (call.handle cfg agent error clock).kill = agent'.kill ∧
      (call.handle cfg agent error clock).risk = agent'.risk := by
  cases call with
  | marketFetch signal => cases error <;> exact ⟨rfl, rfl⟩
  | tickerFetch ticker => exact ⟨rfl, rfl⟩
  | marketList cursor => exact ⟨rfl, rfl⟩
  | orderSend clientOrderId => cases error <;> exact ⟨rfl, rfl⟩
  | fillPoll env highWaterTs listFills => exact ⟨rfl, rfl⟩
  | reconciliation source => exact ⟨rfl, rfl⟩
  | balance => exact ⟨rfl, rfl⟩
  | recoveryList => exact ⟨rfl, rfl⟩

end ApiCall

theorem recordError_engages_iff (cfg : Config) (agent : Agent) (clock : Clock) :
    (agent.recordError cfg clock).kill.isEngaged = true ↔ agent.kill.isEngaged = true ∨
      cfg.risk.errorSpikeThreshold ≤ recent (clock.monotonic - cfg.risk.errorSpikeWindowSeconds)
        (agent.recordError cfg clock).risk.errorTimestamps := by
  unfold Agent.recordError recordError maybeTripOnErrorSpike
  dsimp only
  split_ifs with hspike
  · exact iff_of_true (KillSwitch.isEngaged_engage _ _ _) (.inr hspike)
  · exact (or_iff_left hspike).symm

theorem recordError_errorTimestamps (cfg : Config) (agent : Agent) (clock : Clock) :
    (agent.recordError cfg clock).risk.errorTimestamps =
      pushTimestamp agent.risk.errorTimestamps clock.monotonic := by
  rw [Agent.recordError, recordError]

def Watched.Buffers (s : Watched) : Prop :=
  Buffered 200 s.agent.risk.errorTimestamps
    ((s.failures.filter Failure.recorded).map Failure.monotonic) s.now

section Steps
variable {cfg : Config} {s s' : Watched}

/-- What a failing call leaves: the buffer of the recorded failures, and the switch engaged when
it was, or when the call is recorded and fills the window of the remembered ones. -/
theorem fails_monitor {call : ApiCall} {error : ClientError} {clock : Clock} (hI : s.Buffers)
    (h : watchStep cfg s (.fails call error clock) = some s') :
    s'.Buffers ∧ (s'.agent.kill.isEngaged = true ↔ s.agent.kill.isEngaged = true ∨
      call.recorded error = true ∧ cfg.risk.errorSpikeThreshold ≤ 200 ∧
        cfg.risk.errorSpikeThreshold ≤ recordedBy cfg s'.failures s'.now) := by
  simp only [watchStep] at h
  split_ifs at h with hraises
  cases h
  obtain ⟨hkill, hrisk⟩ := call.handle_monitor cfg s.agent error clock
  unfold Watched.Buffers at hI ⊢
  dsimp only at hkill hrisk ⊢
  rw [hkill, hrisk]
  cases hrecorded : call.recorded error with
  | false =>
    have hsame : (s.failures ++ ([⟨clock.monotonic, false⟩] : List Failure)).filter
        Failure.recorded = s.failures.filter Failure.recorded := by simp
    rw [if_neg Bool.false_ne_true, hsame]
    exact ⟨hI.wait hraises.1, by simp⟩
  | true =>
    have hadded : (s.failures ++ ([⟨clock.monotonic, true⟩] : List Failure)).filter
        Failure.recorded = s.failures.filter Failure.recorded ++ [⟨clock.monotonic, true⟩] := by
      simp
    have hpushed := hI.push hraises.1
    rw [if_pos rfl, recordError_engages_iff, recordError_errorTimestamps, recordedBy, failuresBy,
      hadded, List.map_append, pushTimestamp_eq]
    refine ⟨hpushed, or_congr_right ?_⟩
    rw [hpushed.recent_eq, List.map_singleton]
    simp only [true_and, Nat.cast_min, le_min_iff, Nat.cast_ofNat]

theorem Watched.Buffers.step {step : WatchStep} (hI : s.Buffers)
    (h : watchStep cfg s step = some s') : s'.Buffers := by
  cases step with
  | fails call error clock => exact (fails_monitor hI h).1
  | works agent =>
    simp only [watchStep] at h
    split_ifs at h with hworks
    cases h
    unfold Watched.Buffers at hI ⊢
    dsimp only
    rw [hworks.1]
    exact hI
  | disengage =>
    cases h
    exact hI
  | waits monotonic =>
    simp only [watchStep] at h
    split_ifs at h with hlater
    cases h
    exact hI.wait hlater

theorem spikeHalts_step_iff {step : WatchStep} (hI : s.Buffers) (hP : SpikeHalts cfg s)
    (h : watchStep cfg s step = some s') : SpikeHalts cfg s' ↔ SpikeRecorded cfg s step := by
  cases step with
  | fails call error clock =>
    have hengaged := (fails_monitor hI h).2
    simp only [watchStep] at h
    split_ifs at h
    cases h
    unfold SpikeHalts SpikeRecorded
    rw [hengaged]
    cases s.agent.kill.isEngaged <;> simp
  | works agent =>
    simp only [watchStep] at h
    split_ifs at h with hworks
    cases h
    exact iff_of_true (fun hfull => hworks.2 (hP hfull)) trivial
  | disengage =>
    cases h
    unfold SpikeHalts SpikeRecorded
    simp
  | waits monotonic =>
    simp only [watchStep] at h
    split_ifs at h with hlater
    cases h
    refine iff_of_true (fun hfull => hP (hfull.trans ?_)) trivial
    -- the window moves on, so fewer failures are in it
    exact_mod_cast recent_anti (sub_le_sub_right hlater _) _

end Steps

/-- In every run of a process: enough failures in the window leave the switch engaged if and only
if the failures that fill the window are recorded, up to what the monitor remembers. -/
theorem spikeHalts_iff (cfg : Config) (agent : Agent) (now : ℚ) (steps : List WatchStep) :
    AllStates (watchStep cfg) (SpikeHalts cfg) (.start agent now) steps ↔
      (cfg.risk.errorSpikeThreshold ≤ 0 → agent.kill.isEngaged = true) ∧
        AllSteps (watchStep cfg) (SpikeRecorded cfg) (.start agent now) steps := by
  have hstart : (Watched.start agent now).Buffers := .nil 200 now
  have hrun (hhalts : SpikeHalts cfg (.start agent now)) :
      AllStates (watchStep cfg) (SpikeHalts cfg) (.start agent now) steps ↔
        AllSteps (watchStep cfg) (SpikeRecorded cfg) (.start agent now) steps :=
    allStates_iff_allSteps (I := Watched.Buffers) (fun s step s' hI h => hI.step h)
      (fun s step s' hI hP h => spikeHalts_step_iff hI hP h) hstart hhalts
  constructor
  · intro h
    exact ⟨h.head, (hrun h.head).mp h⟩
  · rintro ⟨hzero, hsteps⟩
    exact (hrun hzero).mpr hsteps

def pollFails (second : ℚ) : WatchStep :=
  .fails (.fillPoll plainEnv none (.failed (.api 503 ""))) (.api 503 "") ⟨0, second⟩

/-- Five polls fail within five seconds. -/
theorem not_spikeHalts_fillPolls :
    ¬ AllStates (watchStep (.example (.fixed 0))) (SpikeHalts (.example (.fixed 0)))
      (.start ⟨.empty, ⟨none⟩, .start⟩ 0) ([1, 2, 3, 4, 5].map pollFails) :=
  not_allStates_of_decide (by decide +kernel)

end KalshiAgent
