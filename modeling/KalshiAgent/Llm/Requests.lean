import KalshiAgent.Lib.Execution
import KalshiAgent.Lib.Spacing
import KalshiAgent.Llm.OpenRouter

/-! The requests of one chat client. Its calls run their loops beside one another, and meet in
`_throttle`, whose lock a call keeps while it sleeps. -/

namespace KalshiAgent
open Execution Metering

/-- A call of `chat_json`, before its next request or with one that is not answered yet. -/
structure ChatCall where
  maxRetries : ℕ
  maxRateLimitRetries : ℕ
  phase : ChatPhase
  inFlight : Bool
  -- ghost state: the requests so far
  requests : ℕ

def ChatCall.send (call : ChatCall) : Option ChatCall :=
  match call.phase, call.inFlight with
  | .sending _ _, false => some { call with inFlight := true, requests := call.requests + 1 }
  | _, _ => none

/-- The sleep after the reply is over when the call comes to `_throttle` again. -/
def ChatCall.receive (env : ChatEnv) (call : ChatCall) (reply : ChatReply) : Option ChatCall :=
  match call.phase, call.inFlight with
  | .sending errorAttempts rateLimitAttempts, true =>
    some { call with
      phase := ChatPhase.onReply env call.maxRetries call.maxRateLimitRetries errorAttempts
        rateLimitAttempts reply
      inFlight := false }
  | _, _ => none

def ChatCall.cancel (call : ChatCall) : ChatCall :=
  { call with phase := .finished (.error (.raised (.other "CancelledError"))), inFlight := false }

structure ChatClient where
  calls : List ChatCall
  lastRequestTs : ℚ
  -- the call that holds the lock, and until when it sleeps
  holder : Option (ℕ × ℚ)
  -- the last reading of `time.monotonic`
  now : ℚ
  -- ghost state: when the requests have been sent
  requests : List ℚ

inductive ChatEvent
  | calls (maxRetries maxRateLimitRetries : ℕ)
  -- a call finds the lock of `_throttle` free
  | throttles (i : ℕ)
  | wakes
  | replies (i : ℕ) (reply : ChatReply)
  | cancelled (i : ℕ)

namespace ChatClient

def init (now : ℚ) : ChatClient := ⟨[], 0, none, now, []⟩

def request (s : ChatClient) (i : ℕ) (now : ℚ) : Option ChatClient :=
  (s.calls[i]?.bind ChatCall.send).map fun call =>
    { s with calls := s.calls.set i call, now, requests := s.requests ++ [now] }

/-- The end of `_throttle`, and the request that follows without another `await`. -/
def release (s : ChatClient) (i : ℕ) (now : ℚ) : Option ChatClient :=
  { s with lastRequestTs := now, holder := none }.request i now

def throttle (minInterval : ℚ) (s : ChatClient) (i : ℕ) (now : ℚ) : Option ChatClient :=
  if minInterval ≤ 0 then s.request i now
  else if s.holder.isSome || (s.calls[i]?.bind ChatCall.send).isNone then none
  else
    let wait := minInterval - (now - s.lastRequestTs)
    if 0 < wait then some { s with holder := some (i, now + wait), now } else s.release i now

end ChatClient

open ChatClient in
def chatStep (env : ChatEnv) (minInterval : ℚ) (s : ChatClient) :
    ChatEvent × ℚ → Option ChatClient
  | (event, now) =>
    if now < s.now then none
    else
      match event with
      | .calls maxRetries maxRateLimitRetries =>
        some { s with
          calls := s.calls ++ [⟨maxRetries, maxRateLimitRetries, .sending 0 0, false, 0⟩]
          now }
      | .throttles i => s.throttle minInterval i now
      | .wakes =>
        match s.holder with
        | some (i, wakeAt) => if wakeAt ≤ now then s.release i now else none
        | none => none
      | .replies i reply =>
        (s.calls[i]?.bind fun call => call.receive env reply).map fun call =>
          { s with calls := s.calls.set i call, now }
      | .cancelled i =>
        s.calls[i]?.map fun call =>
          { s with
            calls := s.calls.set i call.cancel
            holder := s.holder.filter (fun held => held.1 ≠ i)
            now }

/-- What the provider sees of all calls. -/
structure ChatClient.Paced (minInterval : ℚ) (s : ChatClient) : Prop where
  spaced : 0 < minInterval → s.requests.Pairwise (fun a b => a + minInterval ≤ b)
  bounded : 0 < minInterval → ∀ a b, a ≤ b →
    (within a b s.requests : ℚ) ≤ 1 + (b - a) / minInterval
  -- one budget for errors and one for 429s, and the first request is sent in any case
  budget : ∀ call ∈ s.calls,
    call.requests + 1 ≤ max 1 call.maxRetries + max 1 call.maxRateLimitRetries

section Budget
variable {env : ChatEnv} {call call' : ChatCall} {reply : ChatReply}

structure ChatCall.Sound (call : ChatCall) : Prop where
  budget : call.requests + 1 ≤ max 1 call.maxRetries + max 1 call.maxRateLimitRetries
  sending : ∀ errorAttempts rateLimitAttempts, call.phase = .sending errorAttempts rateLimitAttempts →
    errorAttempts < max 1 call.maxRetries ∧ rateLimitAttempts < max 1 call.maxRateLimitRetries ∧
      call.requests = errorAttempts + rateLimitAttempts + call.inFlight.toNat

theorem ChatCall.Sound.new (maxRetries maxRateLimitRetries : ℕ) :
    ChatCall.Sound ⟨maxRetries, maxRateLimitRetries, .sending 0 0, false, 0⟩ := by
  have hretries : 1 ≤ max 1 maxRetries := le_max_left _ _
  have hlimits : 1 ≤ max 1 maxRateLimitRetries := le_max_left _ _
  constructor
  · exact hretries.trans (Nat.le_add_right _ _)
  · intro errorAttempts rateLimitAttempts hphase
    cases hphase
    exact ⟨hretries, hlimits, rfl⟩

theorem ChatCall.Sound.send (h : call.Sound) (hsend : call.send = some call') : call'.Sound := by
  unfold ChatCall.send at hsend
  split at hsend
  case h_1 errorAttempts rateLimitAttempts hphase hidle =>
    cases hsend
    obtain ⟨herrors, hlimits, hrequests⟩ := h.sending _ _ hphase
    rw [hidle] at hrequests
    constructor
    · dsimp only
      rw [hrequests, Bool.toNat_false]
      omega
    · intro errors limits hphase'
      cases hphase.symm.trans hphase'
      exact ⟨herrors, hlimits, congrArg (· + 1) hrequests⟩
  case h_2 => exact absurd hsend.symm (Option.some_ne_none _)

theorem ChatCall.Sound.receive (h : call.Sound) (hreceive : call.receive env reply = some call') :
    call'.Sound := by
  unfold ChatCall.receive at hreceive
  split at hreceive
  case h_1 errorAttempts rateLimitAttempts hphase hflying =>
    cases hreceive
    obtain ⟨herrors, hlimits, hrequests⟩ := h.sending _ _ hphase
    rw [hflying, Bool.toNat_true] at hrequests
    refine ⟨h.budget, fun errors limits hnext => ?_⟩
    dsimp only at hnext ⊢
    rw [Bool.toNat_false, hrequests]
    rcases onReply_cases env call.maxRetries call.maxRateLimitRetries errorAttempts rateLimitAttempts
      reply with ⟨⟨outcome, hend⟩, _⟩ | ⟨_, ⟨_, hbudget, hgo⟩ | ⟨_, hbudget, hgo⟩⟩
    · cases hend.symm.trans hnext
    · cases hgo.symm.trans hnext
      exact ⟨hbudget.trans_le (le_max_right _ _), hlimits, Nat.add_right_comm _ _ _⟩
    · cases hgo.symm.trans hnext
      exact ⟨herrors, hbudget.trans_le (le_max_right _ _), Nat.add_assoc _ _ _⟩
  case h_2 => exact absurd hreceive.symm (Option.some_ne_none _)

theorem ChatCall.Sound.cancel (h : call.Sound) : call.cancel.Sound :=
  ⟨h.budget, fun _ _ hphase => absurd hphase nofun⟩

end Budget

structure ChatClient.Kept (minInterval : ℚ) (s : ChatClient) : Prop where
  sound : ∀ call ∈ s.calls, call.Sound
  spaced : 0 < minInterval → s.requests.Pairwise (fun a b => a + minInterval ≤ b)
  last : 0 < minInterval → ∀ t ∈ s.requests, t ≤ s.lastRequestTs
  wait_le : ∀ i wakeAt, s.holder = some (i, wakeAt) → s.lastRequestTs + minInterval ≤ wakeAt

namespace ChatClient.Kept
open ChatClient
variable {env : ChatEnv} {minInterval now : ℚ} {s s' : ChatClient} {i : ℕ}

theorem init (minInterval now : ℚ) : (init now).Kept minInterval where
  sound _ h := absurd h List.not_mem_nil
  spaced _ := List.Pairwise.nil
  last _ _ h := absurd h List.not_mem_nil
  wait_le _ _ h := absurd h nofun

theorem sound_set (h : s.Kept minInterval) {call : ChatCall} (hcall : call.Sound) (i : ℕ) :
    ∀ c ∈ s.calls.set i call, c.Sound := by
  intro c hc
  rcases List.mem_or_eq_of_mem_set hc with hc | rfl
  · exact h.sound c hc
  · exact hcall

theorem sound_get (h : s.Kept minInterval) {call : ChatCall} (hcall : s.calls[i]? = some call) :
    call.Sound :=
  h.sound call (List.mem_of_getElem? hcall)

theorem sound_send (h : s.Kept minInterval) {call : ChatCall}
    (hsend : s.calls[i]?.bind ChatCall.send = some call) : ∀ c ∈ s.calls.set i call, c.Sound := by
  obtain ⟨before, hget, hsend⟩ := Option.bind_eq_some_iff.mp hsend
  exact h.sound_set ((h.sound_get hget).send hsend) i

theorem release (h : s.Kept minInterval) (hinterval : s.lastRequestTs + minInterval ≤ now)
    (hstep : s.release i now = some s') : s'.Kept minInterval := by
  obtain ⟨call, hsend, rfl⟩ := Option.map_eq_some_iff.mp hstep
  refine ⟨h.sound_send hsend, fun hpos => ?_, fun hpos t ht => ?_, fun _ _ h => absurd h nofun⟩
  · apply List.pairwise_append.mpr
    refine ⟨h.spaced hpos, List.pairwise_singleton _ _, fun t ht x hx => ?_⟩
    rw [List.mem_singleton.mp hx]
    linarith [h.last hpos t ht]
  · rcases List.mem_append.mp ht with ht | ht
    · have hlast := h.last hpos t ht
      dsimp only
      linarith
    · exact (List.mem_singleton.mp ht).le

theorem throttle (h : s.Kept minInterval) (hstep : s.throttle minInterval i now = some s') :
    s'.Kept minInterval := by
  unfold ChatClient.throttle at hstep
  dsimp only at hstep
  split_ifs at hstep with hnone _ hwait
  · obtain ⟨call, hsend, rfl⟩ := Option.map_eq_some_iff.mp hstep
    exact ⟨h.sound_send hsend, fun hpos => absurd hpos (not_lt.mpr hnone),
      fun hpos => absurd hpos (not_lt.mpr hnone), h.wait_le⟩
  · cases hstep
    refine ⟨h.sound, h.spaced, h.last, fun j wakeAt hholder => ?_⟩
    cases hholder
    dsimp only
    linarith
  · exact h.release (by linarith) hstep

theorem step (h : s.Kept minInterval) {event : ChatEvent × ℚ}
    (hstep : chatStep env minInterval s event = some s') : s'.Kept minInterval := by
  obtain ⟨event, now⟩ := event
  simp only [chatStep] at hstep
  split_ifs at hstep
  cases event with
  | calls maxRetries maxRateLimitRetries =>
    cases hstep
    refine ⟨fun call hcall => ?_, h.spaced, h.last, h.wait_le⟩
    rcases List.mem_append.mp hcall with hcall | hcall
    · exact h.sound call hcall
    · rw [List.mem_singleton.mp hcall]
      exact .new maxRetries maxRateLimitRetries
  | throttles i => exact h.throttle hstep
  | wakes =>
    cases hholder : s.holder with
    | none =>
      rw [hholder] at hstep
      exact absurd hstep.symm (Option.some_ne_none _)
    | some held =>
      obtain ⟨i, wakeAt⟩ := held
      rw [hholder] at hstep
      dsimp only at hstep
      split_ifs at hstep with hawake
      exact h.release ((h.wait_le i wakeAt hholder).trans hawake) hstep
  | replies i reply =>
    obtain ⟨call, hcall, rfl⟩ := Option.map_eq_some_iff.mp hstep
    obtain ⟨before, hget, hreceive⟩ := Option.bind_eq_some_iff.mp hcall
    exact ⟨h.sound_set ((h.sound_get hget).receive hreceive) i, h.spaced, h.last, h.wait_le⟩
  | cancelled i =>
    obtain ⟨call, hget, rfl⟩ := Option.map_eq_some_iff.mp hstep
    refine ⟨h.sound_set (h.sound_get hget).cancel i, h.spaced, h.last, fun j wakeAt hholder => ?_⟩
    exact h.wait_le j wakeAt (Option.filter_eq_some_iff.mp hholder).1

end ChatClient.Kept

/-- In every run of the calls of one client, whatever the replies. -/
theorem requests_paced (env : ChatEnv) (minInterval now : ℚ) (events : List (ChatEvent × ℚ)) :
    AllStates (chatStep env minInterval) (ChatClient.Paced minInterval) (.init now) events := by
  apply allStates_of_invariant (I := ChatClient.Kept minInterval) _ _ _ events
  · exact fun s event s' h hstep => h.step hstep
  · intro s h
    refine ⟨h.spaced, fun hpos a b hab => ?_, fun call hcall => (h.sound call hcall).budget⟩
    exact within_le_of_pairwise hpos (h.spaced hpos) hab
  · exact .init minInterval now

end KalshiAgent
