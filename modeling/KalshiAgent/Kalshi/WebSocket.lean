import KalshiAgent.Lib.Execution
import KalshiAgent.Lib.Rounding
import KalshiAgent.Llm.Json
import KalshiAgent.Safety.KillSwitch

/-! The WebSocket client beside its watchdog. Both are tasks of one event loop, so a tick of the
watchdog falls between two steps of the client, each of which ends at an `await`. -/

namespace KalshiAgent
open Execution

/-- A frame as `json.loads` meets it. -/
inductive RawFrame
  -- JSONDecodeError
  | notJson
  -- any other exception, such as UnicodeDecodeError
  | undecodable
  | json (msg : Json)

def messageType (msg : Json) : Except PyError Json := do
  let type ← msg.get "type"
  if type.truthy then return type
  let channel ← msg.get "channel"
  return if channel.truthy then channel else .str "unknown"

def hasHandler (handlers : List String) : Json → Except PyError Bool
  | .str name => .ok (handlers.contains name)
  -- unhashable
  | .arr _ | .obj _ => .error .typeError
  | _ => .ok false

inductive WsPhase
  | connecting
  | subscribing
  | receiving
  | handling
  -- in the connection's `__aexit__`, and whether an exception has ended the body
  | leaving (raised : Bool)
  | backingOff (wakeAt : ℚ)
  | stopped
  deriving DecidableEq

structure KalshiWebSocket where
  connected : Bool
  lastMessageAt : ℚ
  attempt : ℕ
  phase : WsPhase
  deriving DecidableEq

abbrev Jitter := { x : ℚ // 0 ≤ x ∧ x ≤ 1 }

def backoff (attempt : ℕ) (jitter : Jitter) : ℚ := min 30 (2 ^ attempt) + jitter

namespace KalshiWebSocket

def init (now : ℚ) : KalshiWebSocket := ⟨false, now, 0, .connecting⟩

def secondsSinceLastMessage (ws : KalshiWebSocket) (now : ℚ) : ℚ := now - ws.lastMessageAt

def loopHead (stop : Bool) (ws : KalshiWebSocket) : KalshiWebSocket :=
  if stop then { ws with connected := false, phase := .stopped } else { ws with phase := .connecting }

@[simp] theorem loopHead_lastMessageAt {stop : Bool} {ws : KalshiWebSocket} :
    (ws.loopHead stop).lastMessageAt = ws.lastMessageAt := by
  unfold loopHead
  split <;> rfl

def disconnected (now : ℚ) (jitter : Jitter) (ws : KalshiWebSocket) : KalshiWebSocket :=
  let attempt := ws.attempt + 1
  { ws with connected := false, attempt, phase := .backingOff (now + backoff attempt jitter) }

def nextMessage (stop : Bool) : WsPhase := if stop then .leaving false else .receiving

def dispatch (handlers : List String) (stop : Bool) : RawFrame → WsPhase
  | .notJson => .receiving
  | .undecodable => .leaving true
  | .json msg =>
    match messageType msg >>= hasHandler handlers with
    | .error _ => .leaving true
    | .ok true => .handling
    | .ok false => nextMessage stop

end KalshiWebSocket

inductive LoopEvent
  | connects
  -- `websockets.connect` raises, or the handshake's signature before it
  | refused (jitter : Jitter)
  | subscribed
  | receives (raw : RawFrame)
  -- the handler returns, or raises what its caller logs
  | handled
  | closes
  -- the subscriptions or the iteration raise
  | breaks
  | left (raised : Bool) (jitter : Jitter)
  | wakes

inductive LinkEvent
  | opened
  | message
  | failed
  deriving DecidableEq

open KalshiWebSocket in
def loopStep (handlers : List String) (stop : Bool) (now : ℚ) (ws : KalshiWebSocket)
    (event : LoopEvent) : Option (KalshiWebSocket × Option LinkEvent) :=
  match ws.phase, event with
  | .connecting, .connects =>
    some ({ ws with connected := true, lastMessageAt := now, phase := .subscribing }, some .opened)
  | .connecting, .refused jitter => some (ws.disconnected now jitter, some .failed)
  | .subscribing, .subscribed => some ({ ws with attempt := 0, phase := .receiving }, none)
  | .subscribing, .breaks => some ({ ws with phase := .leaving true }, none)
  | .receiving, .receives raw =>
    some ({ ws with lastMessageAt := now, phase := dispatch handlers stop raw }, some .message)
  | .receiving, .closes => some ({ ws with phase := .leaving false }, none)
  | .receiving, .breaks => some ({ ws with phase := .leaving true }, none)
  | .handling, .handled => some ({ ws with phase := nextMessage stop }, none)
  | .leaving bodyRaised, .left raised jitter =>
    if bodyRaised || raised then some (ws.disconnected now jitter, some .failed)
    else some (ws.loopHead stop, none)
  | .backingOff wakeAt, .wakes =>
    if stop ∨ wakeAt ≤ now then some (ws.loopHead stop, none) else none
  | _, _ => none

/-- A turn of `WSWatchdog.run` once it is armed. The text of the reason reads the clock again. -/
def WSWatchdog.tick (timeoutSeconds now later : ℚ) (ws : KalshiWebSocket) (kill : KillSwitch) :
    KillSwitch :=
  if timeoutSeconds < ws.secondsSinceLastMessage now ∧ ws.connected then
    if !kill.isEngaged then
      kill.engage (.wsSilent (Rounding.roundHalfEven (ws.secondsSinceLastMessage later)))
        "ws_watchdog"
    else kill
  else kill

structure LinkRecord where
  event : LinkEvent
  time : ℚ
  deriving DecidableEq

structure Watching where
  ws : KalshiWebSocket
  -- the watchdog has seen the client connected
  armed : Bool
  kill : KillSwitch
  stop : Bool
  -- the last reading of `time.monotonic`
  now : ℚ
  -- ghost state: what the client has met, the newest first
  link : List LinkRecord
  deriving DecidableEq

def Watching.start (kill : KillSwitch) (now : ℚ) : Watching :=
  ⟨.init now, false, kill, false, now, []⟩

inductive WatchingStep
  | loop (event : LoopEvent) (now : ℚ)
  | tick (now later : ℚ)
  | setStop
  -- what the other tasks and the operator do with the switch
  | others (kill : KillSwitch)

/-- What a turn of the watchdog makes of the switch. Its first loop waits for a connection and goes
on to the second one without another `await`. -/
def Watching.ticked (s : Watching) (timeoutSeconds now later : ℚ) : KillSwitch :=
  if s.armed || s.ws.connected then WSWatchdog.tick timeoutSeconds now later s.ws s.kill else s.kill

def watchingStep (handlers : List String) (timeoutSeconds : ℚ) (s : Watching) :
    WatchingStep → Option Watching
  | .loop event now =>
    if s.now ≤ now then
      (loopStep handlers s.stop now s.ws event).map fun (ws, met) =>
        { s with ws, now, link := (met.map fun event => ⟨event, now⟩).toList ++ s.link }
    else none
  | .tick now later =>
    if s.stop = false ∧ s.now ≤ now ∧ now ≤ later then
      some { s with
        armed := s.armed || s.ws.connected
        kill := s.ticked timeoutSeconds now later
        now := later }
    else none
  | .setStop => some { s with stop := true }
  | .others kill => some { s with kill }

/-- The last connection has been opened, and no failure has come since. -/
def isUp : List LinkRecord → Bool
  | [] => false
  | ⟨.opened, _⟩ :: _ => true
  | ⟨.message, _⟩ :: link => isUp link
  | ⟨.failed, _⟩ :: _ => false

/-- No message and no new connection for more than the timeout. -/
def Silent (timeoutSeconds now : ℚ) (link : List LinkRecord) : Prop :=
  ∀ r ∈ link, r.event ≠ .failed → timeoutSeconds < now - r.time

def NoMessage (timeoutSeconds now : ℚ) (link : List LinkRecord) : Prop :=
  (∃ r ∈ link, r.event = .opened ∧ timeoutSeconds < now - r.time) ∧
    ∀ r ∈ link, r.event = .message → timeoutSeconds < now - r.time

/-- A tick after silence halts, whether or not the connection is up. -/
def HaltsOnNoMessage (timeoutSeconds : ℚ) (s : Watching) : WatchingStep → Prop
  | .tick now later => NoMessage timeoutSeconds now s.link →
      (s.ticked timeoutSeconds now later).isEngaged = true
  | _ => True

/-- A tick halts when the connection is up and silent. -/
def HaltsOnSilence (timeoutSeconds : ℚ) (s : Watching) : WatchingStep → Prop
  | .tick now later => isUp s.link = true → Silent timeoutSeconds now s.link →
      (s.ticked timeoutSeconds now later).isEngaged = true
  | _ => True

section Decidable
variable (timeoutSeconds now : ℚ) (link : List LinkRecord)

instance : Decidable (Silent timeoutSeconds now link) :=
  inferInstanceAs (Decidable (∀ r ∈ link, _ → _))

instance : Decidable (NoMessage timeoutSeconds now link) :=
  inferInstanceAs (Decidable ((∃ r ∈ link, _ ∧ _) ∧ ∀ r ∈ link, _ → _))

instance (s : Watching) (step : WatchingStep) :
    Decidable (HaltsOnNoMessage timeoutSeconds s step) := by
  cases step <;> unfold HaltsOnNoMessage <;> infer_instance

end Decidable

/-- What the client and the record of its link have to do with each other. Once it is to stop, the
client may say that it is not connected, and the watchdog does not look any more. -/
structure Watching.Kept (s : Watching) : Prop where
  connected_iff : s.stop = false → (s.ws.connected = true ↔ isUp s.link = true)
  heard : isUp s.link = true → ∃ r ∈ s.link, r.event ≠ .failed ∧ r.time = s.ws.lastMessageAt
  latest : ∀ r ∈ s.link, r.event ≠ .failed → r.time ≤ s.ws.lastMessageAt
  past : s.ws.lastMessageAt ≤ s.now

theorem Watching.Kept.start (kill : KillSwitch) (now : ℚ) : (Watching.start kill now).Kept := by
  constructor
  · exact fun _ => Iff.rfl
  · exact fun h => absurd h Bool.false_ne_true
  · exact fun r hr => absurd hr List.not_mem_nil
  · exact le_refl now

section Steps
open KalshiWebSocket
variable {handlers : List String} {timeoutSeconds : ℚ} {s s' : Watching}

theorem loopStep_cases {stop : Bool} {now : ℚ} {ws ws' : KalshiWebSocket} {event : LoopEvent}
    {met : Option LinkEvent} (h : loopStep handlers stop now ws event = some (ws', met)) :
    (met = some .opened ∧ ws'.connected = true ∧ ws'.lastMessageAt = now) ∨
      (met = some .message ∧ ws'.connected = ws.connected ∧ ws'.lastMessageAt = now) ∨
      (met = some .failed ∧ ws'.connected = false ∧ ws'.lastMessageAt = ws.lastMessageAt) ∨
      (met = none ∧ (stop = false → ws'.connected = ws.connected) ∧
        ws'.lastMessageAt = ws.lastMessageAt) := by
  unfold loopStep at h
  split at h
  -- the handshake ends
  case h_1 | h_2 =>
    cases h
    simp [disconnected]
  -- a frame is read
  case h_5 =>
    cases h
    exact .inr (.inl ⟨rfl, rfl, rfl⟩)
  -- the connection is left
  case h_9 bodyRaised raised jitter =>
    split at h
    · cases h
      exact .inr (.inr (.inl ⟨rfl, rfl, rfl⟩))
    · cases h
      exact .inr (.inr (.inr ⟨rfl, fun hrun => by simp [loopHead, hrun], loopHead_lastMessageAt⟩))
  case h_10 wakeAt =>
    split_ifs at h
    cases h
    exact .inr (.inr (.inr ⟨rfl, fun hrun => by simp [loopHead, hrun], loopHead_lastMessageAt⟩))
  case h_11 => exact absurd h.symm (Option.some_ne_none _)
  all_goals
    cases h
    exact .inr (.inr (.inr ⟨rfl, fun _ => rfl, rfl⟩))

theorem Watching.Kept.latest_cons (hI : s.Kept) {now : ℚ} (hnow : s.now ≤ now) (event : LinkEvent) :
    ∀ r ∈ (⟨event, now⟩ : LinkRecord) :: s.link, r.event ≠ .failed → r.time ≤ now := by
  intro r hr hheard
  rcases List.mem_cons.mp hr with rfl | hold
  · exact le_refl now
  · have hlatest := hI.latest r hold hheard
    exact hlatest.trans (hI.past.trans hnow)

theorem Watching.Kept.latest_failed (hI : s.Kept) (now : ℚ) :
    ∀ r ∈ (⟨.failed, now⟩ : LinkRecord) :: s.link, r.event ≠ .failed →
      r.time ≤ s.ws.lastMessageAt := by
  intro r hr hheard
  rcases List.mem_cons.mp hr with rfl | hold
  · exact absurd rfl hheard
  · exact hI.latest r hold hheard

theorem Watching.Kept.loop (hI : s.Kept) {event : LoopEvent} {now : ℚ}
    (h : watchingStep handlers timeoutSeconds s (.loop event now) = some s') : s'.Kept := by
  simp only [watchingStep] at h
  split_ifs at h with hnow
  obtain ⟨⟨ws, met⟩, hloop, rfl⟩ := Option.map_eq_some_iff.mp h
  rcases loopStep_cases hloop with
    ⟨rfl, hconnected, hlast⟩ | ⟨rfl, hconnected, hlast⟩ | ⟨rfl, hconnected, hlast⟩ |
      ⟨rfl, hconnected, hlast⟩
  · -- opened
    constructor
    · exact fun _ => iff_of_true hconnected rfl
    · exact fun _ => ⟨⟨.opened, now⟩, List.mem_cons_self, by simp, hlast.symm⟩
    · dsimp only
      rw [hlast]
      exact hI.latest_cons hnow .opened
    · exact hlast.le
  · -- a message
    constructor
    · intro hrun
      dsimp only
      rw [hconnected]
      exact hI.connected_iff hrun
    · exact fun _ => ⟨⟨.message, now⟩, List.mem_cons_self, by simp, hlast.symm⟩
    · dsimp only
      rw [hlast]
      exact hI.latest_cons hnow .message
    · exact hlast.le
  · -- a failure
    constructor
    · exact fun _ => iff_of_false (by simp [hconnected]) Bool.false_ne_true
    · exact fun hup => absurd hup Bool.false_ne_true
    · dsimp only
      rw [hlast]
      exact hI.latest_failed now
    · exact hlast.le.trans (hI.past.trans hnow)
  · -- nothing of the link
    constructor
    · intro hrun
      dsimp only
      rw [hconnected hrun]
      exact hI.connected_iff hrun
    · dsimp only
      rw [hlast]
      exact hI.heard
    · dsimp only
      rw [hlast]
      exact hI.latest
    · exact hlast.le.trans (hI.past.trans hnow)

theorem Watching.Kept.step (hI : s.Kept) {step : WatchingStep}
    (h : watchingStep handlers timeoutSeconds s step = some s') : s'.Kept := by
  cases step with
  | loop event now => exact hI.loop h
  | tick now later =>
    simp only [watchingStep] at h
    split_ifs at h with htick
    cases h
    exact ⟨hI.connected_iff, hI.heard, hI.latest, hI.past.trans (htick.2.1.trans htick.2.2)⟩
  | setStop =>
    cases h
    exact ⟨fun hrun => absurd hrun.symm Bool.false_ne_true, hI.heard, hI.latest, hI.past⟩
  | others kill =>
    cases h
    exact ⟨hI.connected_iff, hI.heard, hI.latest, hI.past⟩

theorem Watching.Kept.silent_iff (hI : s.Kept) (hup : isUp s.link = true) (now : ℚ) :
    timeoutSeconds < s.ws.secondsSinceLastMessage now ↔ Silent timeoutSeconds now s.link := by
  unfold secondsSinceLastMessage
  constructor
  · intro htimeout r hr hheard
    have hlatest := hI.latest r hr hheard
    linarith
  · intro hsilent
    obtain ⟨r, hr, hheard, htime⟩ := hI.heard hup
    have htimeout := hsilent r hr hheard
    rwa [htime] at htimeout

theorem WSWatchdog.isEngaged_tick (now later : ℚ) (ws : KalshiWebSocket) (kill : KillSwitch) :
    (WSWatchdog.tick timeoutSeconds now later ws kill).isEngaged = true ↔
      kill.isEngaged = true ∨
        (ws.connected = true ∧ timeoutSeconds < ws.secondsSinceLastMessage now) := by
  unfold WSWatchdog.tick
  split_ifs with hsilent hoff
  · exact iff_of_true (KillSwitch.isEngaged_engage _ _ _) (.inr hsilent.symm)
  · exact iff_of_true (by simpa using hoff) (.inr hsilent.symm)
  · exact (or_iff_left fun h => hsilent h.symm).symm

theorem Watching.Kept.isEngaged_ticked_iff (hI : s.Kept) (hrun : s.stop = false) (now later : ℚ) :
    (s.ticked timeoutSeconds now later).isEngaged = true ↔
      s.kill.isEngaged = true ∨ (isUp s.link = true ∧ Silent timeoutSeconds now s.link) := by
  have hconnected := hI.connected_iff hrun
  have hsilent : (s.ws.connected = true ∧ timeoutSeconds < s.ws.secondsSinceLastMessage now) ↔
      (isUp s.link = true ∧ Silent timeoutSeconds now s.link) := by
    rw [hconnected]
    exact and_congr_right fun hup => hI.silent_iff hup now
  unfold Watching.ticked
  split_ifs with harmed
  · rw [WSWatchdog.isEngaged_tick, hsilent]
  · -- the watchdog still waits for a connection, so there is none
    have hdown : ¬ s.ws.connected = true := fun h => harmed (by simp [h])
    exact (or_iff_left fun h => hdown (hconnected.mpr h.1)).symm

end Steps

/-- In every run of the client and the watchdog: a tick at which the connection is up, with no
message and no new connection for more than the timeout, leaves the switch engaged. -/
theorem haltsOnSilence (handlers : List String) (timeoutSeconds : ℚ) (kill : KillSwitch) (now : ℚ)
    (steps : List WatchingStep) :
    AllSteps (watchingStep handlers timeoutSeconds) (HaltsOnSilence timeoutSeconds)
      (.start kill now) steps := by
  apply allSteps_of_invariant (I := Watching.Kept) _ _ (.start kill now) steps
  · exact fun s step s' hI h => hI.step h
  · intro s step s' hI h
    cases step with
    | tick now later =>
      have hrun : s.stop = false := by
        simp only [watchingStep] at h
        split_ifs at h with htick
        exact htick.1
      intro hup hsilent
      exact (hI.isEngaged_ticked_iff hrun now later).mpr (.inr ⟨hup, hsilent⟩)
    | _ => trivial

def oneMessage : List WatchingStep :=
  [.loop .connects 0, .loop .subscribed 0, .loop (.receives (.json (.obj []))) 1]

def noJitter : Jitter := ⟨0, by norm_num, by norm_num⟩

/-- After a failure the watchdog does not look until the next connection, and after a clean close the
timeout begins anew with it: neither tick engages the switch. -/
theorem not_haltsOnNoMessage :
    (¬ AllSteps (watchingStep [] 60) (HaltsOnNoMessage 60) (.start ⟨none⟩ 0)
      (oneMessage ++ [.loop .breaks 2, .loop (.left false noJitter) 2, .tick 100 100])) ∧
    ¬ AllSteps (watchingStep [] 60) (HaltsOnNoMessage 60) (.start ⟨none⟩ 0)
      (oneMessage ++ [.loop .closes 2, .loop (.left false noJitter) 2, .loop .connects 50,
        .loop .subscribed 50, .tick 65 65]) := by
  decide +kernel

end KalshiAgent
