import KalshiAgent.Kalshi.Client
import KalshiAgent.Lib.Text
import KalshiAgent.Llm.Json
import Mathlib.Data.Nat.Count

/-! The chat client: the request loop with its two budgets, over an endless stream of replies.
The loop ends within the budgets, and a reply with content is parsed when it comes within them,
unless a wait before it is refused. -/

namespace KalshiAgent

inductive ChatError
  -- OpenRouterError
  | openRouter (message : String)
  -- every other exception
  | raised (error : PyError)

structure ChatEnv where
  -- `json.loads`
  loads : String → Except PyError Json
  -- `str` of a decoded value
  text : Json → String
  -- `asyncio.sleep` raises on a NaN delay, from Python 3.13 on
  refusesNan : Bool

structure RateLimitHints where
  -- `retry-after`, read by `float`; the inner `none` is ValueError
  retryAfter : Option (Option PyFloat)
  -- `float(reset) / 1000.0 - time.time()` of `x-ratelimit-reset`
  resetIn : Option (Option PyFloat)

structure ChatResponse where
  statusCode : ℕ
  hints : RateLimitHints
  text : String
  -- `resp.json()`
  json : Except PyError Json

inductive ChatReply
  -- httpx.HTTPError
  | httpError (message : String)
  | response (resp : ChatResponse)

section Wait

theorem capped_bound {x : ℚ} (h : |x| < floatBound) : |min (x + 1 / 2) 60| < floatBound := by
  have hcap : (60 : ℚ) < floatBound := lt_floatBound (by norm_num)
  rw [abs_lt] at h ⊢
  exact ⟨lt_min (by linarith) (by linarith), (min_le_right _ _).trans_lt hcap⟩

def capped : PyFloat → PyFloat
  | .finite x bound => .finite (min (x + 1 / 2) 60) (capped_bound bound)
  | .posInf => .finite 60 (lt_floatBound (by norm_num))
  | .negInf => .negInf
  | .nan => .nan

def PyFloat.isPositive : PyFloat → Bool
  | .finite x _ => 0 < x
  | .posInf => true
  | .negInf => false
  | .nan => false

def rateLimitBackOff (attempt : ℕ) : Except PyError PyFloat :=
  if attempt - 1 < 1024 then
    .ok (.finite (min (2 * 2 ^ (attempt - 1)) 60) (by
      rw [abs_of_nonneg (le_min (by positivity) (by norm_num))]
      exact lt_floatBound ((min_le_right _ _).trans (by norm_num))))
  else .error .overflowError

def rateLimitWait (hints : RateLimitHints) (attempt : ℕ) : Except PyError PyFloat :=
  match hints.retryAfter with
  | some (some seconds) => .ok (capped seconds)
  | _ =>
    match hints.resetIn with
    | some (some seconds) =>
      if seconds.isPositive then .ok (capped seconds) else rateLimitBackOff attempt
    | _ => rateLimitBackOff attempt

def PyFloat.sleep (refusesNan : Bool) : PyFloat → Sleep
  | .finite _ _ => .wakes
  | .posInf => .neverWakes
  | .negInf => .wakes
  | .nan => if refusesNan then .raises "Invalid delay: NaN (not a number)" else .wakes

end Wait

section Body

structure Completion where
  finishReason : Json
  usage : Json
  content : String

def readChoice (choice : Json) : Except PyError (Json × Json) := do
  let finishReason ← choice.get "finish_reason"
  let message ← choice.get "message"
  let content ← if message.truthy then message.get "content" else .ok .null
  return (finishReason, content)

def readCompletion (data : Json) : Except PyError Completion := do
  let choices ← data.get "choices"
  let usage ← data.get "usage"
  if choices.truthy then
    let choice ← choices.head
    let (finishReason, content) ← readChoice choice
    if content.truthy then
      match content with
      | .str content => return ⟨finishReason, usage, content⟩
      -- no other value has a `strip`
      | _ => .error .attributeError
    else return ⟨finishReason, usage, ""⟩
  else return ⟨.null, usage, ""⟩

def blank (content : String) : Bool := content.toList.all isSpace

/-- `content[content.find("{"):content.rfind("}") + 1]`, where the braces are there in order. -/
def embedded (content : String) : Option String :=
  let chars := content.toList
  match chars.findIdx? (· = '{'), chars.reverse.findIdx? (· = '}') with
  | some start, some back =>
    let stop := chars.length - 1 - back
    if start < stop then some (String.ofList ((chars.take (stop + 1)).drop start)) else none
  | _, _ => none

def parseJson (loads : String → Except PyError Json) (content : String) : Except ChatError Json :=
  match loads content with
  | .ok value => .ok value
  | .error .jsonDecodeError =>
    match (embedded content).map loads with
    | some (.ok value) => .ok value
    | none | some (.error .jsonDecodeError) =>
      .error (.openRouter ("unparseable JSON content: " ++ content.take 300))
    | some (.error e) => .error (.raised e)
  | .error e => .error (.raised e)

end Body

/-- Where the loop of `chat_json` is before its next request: it has that many attempts behind it,
or it has ended, or it sleeps for good. -/
inductive ChatPhase
  | sending (errorAttempts rateLimitAttempts : ℕ)
  | asleep
  | finished (outcome : Except ChatError Json)

namespace ChatPhase
variable (env : ChatEnv) (maxRetries maxRateLimitRetries : ℕ)

def exhausted (lastErr : String) : ChatPhase :=
  .finished (.error (.openRouter ("exhausted retries: " ++ lastErr)))

def pause (next : ChatPhase) : Sleep → ChatPhase
  | .wakes => next
  | .neverWakes => .asleep
  | .raises message => .finished (.error (.raised (.other message)))

def onError (errorAttempts rateLimitAttempts : ℕ) (lastErr : String) : ChatPhase :=
  if maxRetries ≤ errorAttempts + 1 then exhausted lastErr
  else pause (.sending (errorAttempts + 1) rateLimitAttempts) (backOffSleep errorAttempts)

def onRateLimit (hints : RateLimitHints) (errorAttempts rateLimitAttempts : ℕ) : ChatPhase :=
  match rateLimitWait hints (rateLimitAttempts + 1) with
  | .error e => .finished (.error (.raised e))
  | .ok wait =>
    if maxRateLimitRetries ≤ rateLimitAttempts + 1 then
      exhausted ("429 rate limited (attempt " ++ toString (rateLimitAttempts + 1) ++ ")")
    else pause (.sending errorAttempts (rateLimitAttempts + 1)) (wait.sleep env.refusesNan)

def onReply (errorAttempts rateLimitAttempts : ℕ) : ChatReply → ChatPhase
  | .httpError message =>
    onError maxRetries errorAttempts rateLimitAttempts ("transport error: " ++ message)
  | .response resp =>
    if resp.statusCode = 429 then
      onRateLimit env maxRateLimitRetries resp.hints errorAttempts rateLimitAttempts
    else if 500 ≤ resp.statusCode ∧ resp.statusCode < 600 then
      onError maxRetries errorAttempts rateLimitAttempts
        (toString resp.statusCode ++ ": " ++ resp.text.take 200)
    else if 400 ≤ resp.statusCode then
      .finished (.error (.openRouter (toString resp.statusCode ++ ": " ++ resp.text.take 500)))
    else
      match resp.json.bind readCompletion with
      | .error e => .finished (.error (.raised e))
      | .ok completion =>
        if blank completion.content then
          onError maxRetries errorAttempts rateLimitAttempts ("empty completion (finish_reason=" ++
            env.text completion.finishReason ++ ", usage=" ++ env.text completion.usage ++ ")")
        else .finished (parseJson env.loads completion.content)

end ChatPhase

def chatJson (env : ChatEnv) (maxRetries maxRateLimitRetries : ℕ) (replies : ℕ → ChatReply) :
    ℕ → ChatPhase
  | 0 => .sending 0 0
  | n + 1 =>
    match chatJson env maxRetries maxRateLimitRetries replies n with
    | .sending errorAttempts rateLimitAttempts =>
      ChatPhase.onReply env maxRetries maxRateLimitRetries errorAttempts rateLimitAttempts (replies n)
    | phase => phase

inductive ChatKind
  -- a transport error, a 5xx, or a 200 with blank content
  | error
  | rateLimited
  -- any other status from 400 on
  | rejected
  -- a body that reading the completion raises on
  | malformed
  | content (text : String)
  deriving DecidableEq

def ChatReply.kind : ChatReply → ChatKind
  | .httpError _ => .error
  | .response resp =>
    if resp.statusCode = 429 then .rateLimited
    else if 500 ≤ resp.statusCode ∧ resp.statusCode < 600 then .error
    else if 400 ≤ resp.statusCode then .rejected
    else
      match resp.json.bind readCompletion with
      | .error _ => .malformed
      | .ok completion => if blank completion.content then .error else .content completion.content

section Budgets
variable (env : ChatEnv) (maxRetries maxRateLimitRetries : ℕ) (replies : ℕ → ChatReply)

def errorsBefore (n : ℕ) : ℕ := Nat.count (fun i => (replies i).kind = .error) n

def rateLimitsBefore (n : ℕ) : ℕ := Nat.count (fun i => (replies i).kind = .rateLimited) n

/-- A 200 with content comes before the budgets are used up, and before any reply that is neither an
error nor a 429. -/
structure ArrivesInTime (n : ℕ) (text : String) : Prop where
  content : (replies n).kind = .content text
  errors : errorsBefore replies n < maxRetries
  rateLimits : rateLimitsBefore replies n < maxRateLimitRetries
  retried : ∀ i < n, (replies i).kind = .error ∨ (replies i).kind = .rateLimited

/-- The loop gets the reply of index `n`, and ends with what its content is parsed as. -/
def Parses (n : ℕ) (text : String) : Prop :=
  (∃ errorAttempts rateLimitAttempts, chatJson env maxRetries maxRateLimitRetries replies n =
    .sending errorAttempts rateLimitAttempts) ∧
    (replies n).kind = .content text ∧
      chatJson env maxRetries maxRateLimitRetries replies (n + 1) =
        .finished (parseJson env.loads text)

structure WithinBudgets : Prop where
  ends : ∃ n ≤ maxRetries + maxRateLimitRetries - 1, ∃ outcome,
    chatJson env maxRetries maxRateLimitRetries replies n = .finished outcome
  rejects : ∀ n errorAttempts rateLimitAttempts,
    chatJson env maxRetries maxRateLimitRetries replies n =
      .sending errorAttempts rateLimitAttempts → (replies n).kind = .rejected →
        ∃ message, chatJson env maxRetries maxRateLimitRetries replies (n + 1) =
          .finished (.error (.openRouter message))
  separate : ∀ n errorAttempts rateLimitAttempts,
    chatJson env maxRetries maxRateLimitRetries replies n =
      .sending errorAttempts rateLimitAttempts →
        errorAttempts = errorsBefore replies n ∧ rateLimitAttempts = rateLimitsBefore replies n
  parses : ∀ n text, Parses env maxRetries maxRateLimitRetries replies n text ↔
    ArrivesInTime maxRetries maxRateLimitRetries replies n text

def RateLimitHints.seconds (hints : RateLimitHints) : Option PyFloat :=
  match hints.retryAfter with
  | some (some seconds) => some seconds
  | _ =>
    match hints.resetIn with
    | some (some seconds) => if seconds.isPositive then some seconds else none
    | _ => none

/-- The wait that a 429 asks for is one that Python can compute and `asyncio.sleep` accepts. -/
def RateLimitHints.Waits (refusesNan : Bool) (rateLimitAttempts : ℕ) (hints : RateLimitHints) :
    Prop :=
  match hints.seconds with
  | some seconds => refusesNan = true → seconds ≠ .nan
  | none => rateLimitAttempts < 1024

def Waits (refusesNan : Bool) (errorAttempts rateLimitAttempts : ℕ) : ChatReply → Prop
  | .httpError _ => errorAttempts < 1024
  | .response resp =>
    if resp.statusCode = 429 then resp.hints.Waits refusesNan rateLimitAttempts
    else errorAttempts < 1024

/-- The condition: no wait before a reply with content that comes within the budgets is refused. -/
def WaitsInTime : Prop :=
  ∀ n text, ArrivesInTime maxRetries maxRateLimitRetries replies n text →
    ∀ i < n, Waits env.refusesNan (errorsBefore replies i) (rateLimitsBefore replies i) (replies i)

end Budgets

section Step
variable (env : ChatEnv) (maxRetries maxRateLimitRetries errorAttempts rateLimitAttempts : ℕ)

theorem onReply_of_kind (reply : ChatReply) :
    let next := ChatPhase.onReply env maxRetries maxRateLimitRetries errorAttempts rateLimitAttempts
      reply
    match reply.kind with
    | .error => (∃ lastErr, next =
          ChatPhase.onError maxRetries errorAttempts rateLimitAttempts lastErr) ∧
        (Waits env.refusesNan errorAttempts rateLimitAttempts reply ↔ errorAttempts < 1024)
    | .rateLimited => ∃ hints : RateLimitHints,
        next = ChatPhase.onRateLimit env maxRateLimitRetries hints errorAttempts rateLimitAttempts ∧
        (Waits env.refusesNan errorAttempts rateLimitAttempts reply ↔
          hints.Waits env.refusesNan rateLimitAttempts)
    | .rejected => ∃ message, next = .finished (.error (.openRouter message))
    | .malformed => ∃ e, next = .finished (.error (.raised e))
    | .content text => next = .finished (parseJson env.loads text) := by
  intro next
  cases reply with
  | httpError message => exact ⟨⟨_, rfl⟩, Iff.rfl⟩
  | response resp =>
    rw [ChatReply.kind]
    by_cases hlimited : resp.statusCode = 429
    · rw [if_pos hlimited]
      refine ⟨resp.hints, if_pos hlimited, ?_⟩
      rw [Waits, if_pos hlimited]
    · have hwaits : Waits env.refusesNan errorAttempts rateLimitAttempts (.response resp) ↔
          errorAttempts < 1024 := by rw [Waits, if_neg hlimited]
      have hnext : next = _ := if_neg hlimited
      rw [if_neg hlimited]
      by_cases hserver : 500 ≤ resp.statusCode ∧ resp.statusCode < 600
      · rw [if_pos hserver]
        exact ⟨⟨_, hnext.trans (if_pos hserver)⟩, hwaits⟩
      · have hnext := hnext.trans (if_neg hserver)
        rw [if_neg hserver]
        by_cases hclient : 400 ≤ resp.statusCode
        · rw [if_pos hclient]
          exact ⟨_, hnext.trans (if_pos hclient)⟩
        · have hnext := hnext.trans (if_neg hclient)
          rw [if_neg hclient]
          cases hread : resp.json.bind readCompletion with
          | error e =>
            rw [hread] at hnext
            exact ⟨e, hnext⟩
          | ok completion =>
            rw [hread] at hnext
            dsimp only
            by_cases hblank : blank completion.content = true
            · rw [if_pos hblank]
              exact ⟨⟨_, hnext.trans (if_pos hblank)⟩, hwaits⟩
            · rw [if_neg hblank]
              exact hnext.trans (if_neg hblank)

theorem onError_cases (lastErr : String) :
    (∃ outcome, ChatPhase.onError maxRetries errorAttempts rateLimitAttempts lastErr =
        .finished outcome) ∧ ¬(errorAttempts + 1 < maxRetries ∧ errorAttempts < 1024) ∨
      ChatPhase.onError maxRetries errorAttempts rateLimitAttempts lastErr =
        .sending (errorAttempts + 1) rateLimitAttempts ∧
          errorAttempts + 1 < maxRetries ∧ errorAttempts < 1024 := by
  unfold ChatPhase.onError backOffSleep
  split_ifs with hbudget hint
  · exact .inl ⟨⟨_, rfl⟩, fun h => absurd h.1 (not_lt.mpr hbudget)⟩
  · exact .inr ⟨rfl, not_le.mp hbudget, hint⟩
  · exact .inl ⟨⟨_, rfl⟩, fun h => hint h.2⟩

theorem capped_sleep (refusesNan : Bool) (x : PyFloat) :
    ((capped x).sleep refusesNan = .wakes ∧ (refusesNan = true → x ≠ .nan)) ∨
      (∃ message, (capped x).sleep refusesNan = .raises message) ∧
        ¬(refusesNan = true → x ≠ .nan) := by
  cases x with
  | finite x bound => exact .inl ⟨rfl, fun _ => nofun⟩
  | posInf => exact .inl ⟨rfl, fun _ => nofun⟩
  | negInf => exact .inl ⟨rfl, fun _ => nofun⟩
  | nan =>
    cases refusesNan with
    | false => exact .inl ⟨rfl, nofun⟩
    | true => exact .inr ⟨⟨_, rfl⟩, fun h => h rfl rfl⟩

theorem rateLimitWait_eq (hints : RateLimitHints) (attempt : ℕ) :
    rateLimitWait hints attempt =
      match hints.seconds with
      | some seconds => .ok (capped seconds)
      | none => rateLimitBackOff attempt := by
  unfold rateLimitWait RateLimitHints.seconds
  split
  · rfl
  · split
    · split_ifs <;> rfl
    · rfl

theorem rateLimitWait_cases (refusesNan : Bool) (hints : RateLimitHints) :
    (∃ wait, rateLimitWait hints (rateLimitAttempts + 1) = .ok wait ∧
        wait.sleep refusesNan = .wakes) ∧ hints.Waits refusesNan rateLimitAttempts ∨
      ((∃ e, rateLimitWait hints (rateLimitAttempts + 1) = .error e) ∨
          ∃ wait message, rateLimitWait hints (rateLimitAttempts + 1) = .ok wait ∧
            wait.sleep refusesNan = .raises message) ∧
        ¬hints.Waits refusesNan rateLimitAttempts := by
  rw [rateLimitWait_eq, RateLimitHints.Waits]
  cases hints.seconds with
  | some seconds =>
    rcases capped_sleep refusesNan seconds with ⟨hwakes, hnan⟩ | ⟨⟨message, hraises⟩, hnan⟩
    · exact .inl ⟨⟨_, rfl, hwakes⟩, hnan⟩
    · exact .inr ⟨.inr ⟨_, message, rfl, hraises⟩, hnan⟩
  | none =>
    unfold rateLimitBackOff
    split_ifs with hint
    · exact .inl ⟨⟨_, rfl, rfl⟩, hint⟩
    · exact .inr ⟨.inl ⟨_, rfl⟩, hint⟩

theorem onRateLimit_cases (hints : RateLimitHints) :
    (∃ outcome, ChatPhase.onRateLimit env maxRateLimitRetries hints errorAttempts
        rateLimitAttempts = .finished outcome) ∧
        ¬(rateLimitAttempts + 1 < maxRateLimitRetries ∧
          hints.Waits env.refusesNan rateLimitAttempts) ∨
      ChatPhase.onRateLimit env maxRateLimitRetries hints errorAttempts rateLimitAttempts =
        .sending errorAttempts (rateLimitAttempts + 1) ∧
          rateLimitAttempts + 1 < maxRateLimitRetries ∧
            hints.Waits env.refusesNan rateLimitAttempts := by
  unfold ChatPhase.onRateLimit
  rcases rateLimitWait_cases rateLimitAttempts env.refusesNan hints with
    ⟨⟨wait, hwait, hwakes⟩, hwaits⟩ | ⟨⟨e, hwait⟩ | ⟨wait, message, hwait, hraises⟩, hwaits⟩
  · rw [hwait]
    dsimp only
    split_ifs with hbudget
    · exact .inl ⟨⟨_, rfl⟩, fun h => absurd h.1 (not_lt.mpr hbudget)⟩
    · rw [hwakes]
      exact .inr ⟨rfl, not_le.mp hbudget, hwaits⟩
  · rw [hwait]
    exact .inl ⟨⟨_, rfl⟩, fun h => hwaits h.2⟩
  · rw [hwait]
    dsimp only
    split_ifs with hbudget
    · exact .inl ⟨⟨_, rfl⟩, fun h => hwaits h.2⟩
    · rw [hraises]
      exact .inl ⟨⟨_, rfl⟩, fun h => hwaits h.2⟩

theorem onReply_cases (reply : ChatReply) :
    let next := ChatPhase.onReply env maxRetries maxRateLimitRetries errorAttempts rateLimitAttempts
      reply
    (∃ outcome, next = .finished outcome) ∧
        (Waits env.refusesNan errorAttempts rateLimitAttempts reply →
          (reply.kind = .error → maxRetries ≤ errorAttempts + 1) ∧
          (reply.kind = .rateLimited → maxRateLimitRetries ≤ rateLimitAttempts + 1)) ∨
      Waits env.refusesNan errorAttempts rateLimitAttempts reply ∧
        (reply.kind = .error ∧ errorAttempts + 1 < maxRetries ∧
            next = .sending (errorAttempts + 1) rateLimitAttempts ∨
          reply.kind = .rateLimited ∧ rateLimitAttempts + 1 < maxRateLimitRetries ∧
            next = .sending errorAttempts (rateLimitAttempts + 1)) := by
  intro next
  have hkind := onReply_of_kind env maxRetries maxRateLimitRetries errorAttempts rateLimitAttempts
    reply
  cases hreply : reply.kind with
  | error =>
    rw [hreply] at hkind
    obtain ⟨⟨lastErr, hnext⟩, hwaits⟩ := hkind
    rw [hwaits]
    rcases onError_cases maxRetries errorAttempts rateLimitAttempts lastErr with
      ⟨⟨outcome, hend⟩, hstop⟩ | ⟨hgo, hbudget, hint⟩
    · exact .inl ⟨⟨outcome, hnext.trans hend⟩,
        fun h => ⟨fun _ => not_lt.mp fun hlt => hstop ⟨hlt, h⟩, nofun⟩⟩
    · exact .inr ⟨hint, .inl ⟨rfl, hbudget, hnext.trans hgo⟩⟩
  | rateLimited =>
    rw [hreply] at hkind
    obtain ⟨hints, hnext, hwaits⟩ := hkind
    rw [hwaits]
    rcases onRateLimit_cases env maxRateLimitRetries errorAttempts rateLimitAttempts hints with
      ⟨⟨outcome, hend⟩, hstop⟩ | ⟨hgo, hbudget, hint⟩
    · exact .inl ⟨⟨outcome, hnext.trans hend⟩,
        fun h => ⟨nofun, fun _ => not_lt.mp fun hlt => hstop ⟨hlt, h⟩⟩⟩
    · exact .inr ⟨hint, .inr ⟨rfl, hbudget, hnext.trans hgo⟩⟩
  | rejected =>
    rw [hreply] at hkind
    obtain ⟨message, hnext⟩ := hkind
    exact .inl ⟨⟨_, hnext⟩, fun _ => ⟨nofun, nofun⟩⟩
  | malformed =>
    rw [hreply] at hkind
    obtain ⟨e, hnext⟩ := hkind
    exact .inl ⟨⟨_, hnext⟩, fun _ => ⟨nofun, nofun⟩⟩
  | content text =>
    rw [hreply] at hkind
    exact .inl ⟨⟨_, hkind⟩, fun _ => ⟨nofun, nofun⟩⟩

end Step

section Run
variable {maxRetries maxRateLimitRetries : ℕ} {replies : ℕ → ChatReply}

theorem errorsBefore_succ (n : ℕ) : errorsBefore replies (n + 1) =
    errorsBefore replies n + if (replies n).kind = .error then 1 else 0 :=
  Nat.count_succ _ n

theorem rateLimitsBefore_succ (n : ℕ) : rateLimitsBefore replies (n + 1) =
    rateLimitsBefore replies n + if (replies n).kind = .rateLimited then 1 else 0 :=
  Nat.count_succ _ n

structure Retrying (maxRetries maxRateLimitRetries : ℕ) (replies : ℕ → ChatReply)
    (n errorAttempts rateLimitAttempts : ℕ) : Prop where
  errors : errorAttempts = errorsBefore replies n
  rateLimits : rateLimitAttempts = rateLimitsBefore replies n
  errors_lt : errorAttempts < maxRetries
  rateLimits_lt : rateLimitAttempts < maxRateLimitRetries
  retried : ∀ i < n, (replies i).kind = .error ∨ (replies i).kind = .rateLimited
  sum : errorAttempts + rateLimitAttempts = n

variable (env : ChatEnv)

theorem chatJson_finished {n m : ℕ} {outcome : Except ChatError Json} (hle : n ≤ m)
    (h : chatJson env maxRetries maxRateLimitRetries replies n = .finished outcome) :
    chatJson env maxRetries maxRateLimitRetries replies m = .finished outcome := by
  induction m, hle using Nat.le_induction with
  | base => exact h
  | succ m _ ih => rw [chatJson, ih]

variable (hR : 1 ≤ maxRetries) (hL : 1 ≤ maxRateLimitRetries)
include hR hL

theorem chatJson_invariant (n : ℕ) :
    (∃ outcome, chatJson env maxRetries maxRateLimitRetries replies n = .finished outcome) ∨
      ∃ errorAttempts rateLimitAttempts,
        chatJson env maxRetries maxRateLimitRetries replies n =
          .sending errorAttempts rateLimitAttempts ∧
        Retrying maxRetries maxRateLimitRetries replies n errorAttempts rateLimitAttempts := by
  induction n with
  | zero => exact .inr ⟨0, 0, rfl, ⟨rfl, rfl, hR, hL, fun i hi => absurd hi i.not_lt_zero, rfl⟩⟩
  | succ n ih =>
    rw [chatJson]
    obtain ⟨outcome, hend⟩ | ⟨errorAttempts, rateLimitAttempts, hsending, hinv⟩ := ih
    · rw [hend]
      exact .inl ⟨outcome, rfl⟩
    · rw [hsending]
      rcases onReply_cases env maxRetries maxRateLimitRetries errorAttempts rateLimitAttempts
        (replies n) with ⟨⟨outcome, hend⟩, _⟩ | ⟨_, hgo⟩
      · exact .inl ⟨outcome, hend⟩
      · refine .inr ?_
        have hretried : (replies n).kind = .error ∨ (replies n).kind = .rateLimited →
            ∀ i < n + 1, (replies i).kind = .error ∨ (replies i).kind = .rateLimited := by
          intro hn i hi
          rcases Nat.lt_succ_iff_lt_or_eq.mp hi with hlt | rfl
          · exact hinv.retried i hlt
          · exact hn
        rcases hgo with ⟨hkind, hbudget, hnext⟩ | ⟨hkind, hbudget, hnext⟩
        · refine ⟨_, _, hnext, ⟨?_, ?_, hbudget, hinv.rateLimits_lt, hretried (.inl hkind), ?_⟩⟩
          · rw [errorsBefore_succ, if_pos hkind, hinv.errors]
          · rw [rateLimitsBefore_succ, hkind, if_neg nofun, hinv.rateLimits, Nat.add_zero]
          · rw [Nat.add_right_comm, hinv.sum]
        · refine ⟨_, _, hnext, ⟨?_, ?_, hinv.errors_lt, hbudget, hretried (.inr hkind), ?_⟩⟩
          · rw [errorsBefore_succ, hkind, if_neg nofun, hinv.errors, Nat.add_zero]
          · rw [rateLimitsBefore_succ, if_pos hkind, hinv.rateLimits]
          · rw [← Nat.add_assoc, hinv.sum]

theorem chatJson_sending {n errorAttempts rateLimitAttempts : ℕ}
    (h : chatJson env maxRetries maxRateLimitRetries replies n =
      .sending errorAttempts rateLimitAttempts) :
    Retrying maxRetries maxRateLimitRetries replies n errorAttempts rateLimitAttempts := by
  obtain ⟨outcome, hend⟩ | ⟨_, _, hsending, hinv⟩ := chatJson_invariant env hR hL n
  · cases h.symm.trans hend
  · cases h.symm.trans hsending
    exact hinv

theorem chatJson_sending_of_le {n m : ℕ} (hle : n ≤ m) {errorAttempts rateLimitAttempts : ℕ}
    (h : chatJson env maxRetries maxRateLimitRetries replies m =
      .sending errorAttempts rateLimitAttempts) :
    chatJson env maxRetries maxRateLimitRetries replies n =
      .sending (errorsBefore replies n) (rateLimitsBefore replies n) := by
  obtain ⟨outcome, hend⟩ | ⟨_, _, hsending, hinv⟩ := chatJson_invariant env hR hL n
  · cases h.symm.trans (chatJson_finished env hle hend)
  · rw [hsending, hinv.errors, hinv.rateLimits]

theorem waits_of_sending {n errorAttempts rateLimitAttempts : ℕ}
    (h : chatJson env maxRetries maxRateLimitRetries replies (n + 1) =
      .sending errorAttempts rateLimitAttempts) :
    Waits env.refusesNan (errorsBefore replies n) (rateLimitsBefore replies n) (replies n) := by
  rw [chatJson, chatJson_sending_of_le env hR hL n.le_succ h] at h
  rcases onReply_cases env maxRetries maxRateLimitRetries (errorsBefore replies n)
    (rateLimitsBefore replies n) (replies n) with ⟨⟨outcome, hend⟩, _⟩ | ⟨hwaits, _⟩
  · cases h.symm.trans hend
  · exact hwaits

theorem sending_of_arrives {n : ℕ} {text : String}
    (h : ArrivesInTime maxRetries maxRateLimitRetries replies n text)
    (hwaits : ∀ i < n,
      Waits env.refusesNan (errorsBefore replies i) (rateLimitsBefore replies i) (replies i)) :
    ∀ m ≤ n, ∃ errorAttempts rateLimitAttempts,
      chatJson env maxRetries maxRateLimitRetries replies m =
        .sending errorAttempts rateLimitAttempts := by
  intro m hm
  induction m with
  | zero => exact ⟨0, 0, rfl⟩
  | succ m ih =>
    obtain ⟨errorAttempts, rateLimitAttempts, hsending⟩ := ih (Nat.le_of_succ_le hm)
    have hinv := chatJson_sending env hR hL hsending
    have hwait := hwaits m hm
    rw [← hinv.errors, ← hinv.rateLimits] at hwait
    rw [chatJson, hsending]
    rcases onReply_cases env maxRetries maxRateLimitRetries errorAttempts rateLimitAttempts
      (replies m) with ⟨_, hstop⟩ | ⟨_, ⟨_, _, hnext⟩ | ⟨_, _, hnext⟩⟩
    · exfalso
      rcases h.retried m hm with hkind | hkind
      · -- the error at `m` is the last that the budget allows, and the content comes later
        have hcount : errorsBefore replies (m + 1) ≤ errorsBefore replies n :=
          Nat.count_monotone _ hm
        rw [errorsBefore_succ, if_pos hkind, ← hinv.errors] at hcount
        exact absurd (((hstop hwait).1 hkind).trans hcount) (not_le.mpr h.errors)
      · have hcount : rateLimitsBefore replies (m + 1) ≤ rateLimitsBefore replies n :=
          Nat.count_monotone _ hm
        rw [rateLimitsBefore_succ, if_pos hkind, ← hinv.rateLimits] at hcount
        exact absurd (((hstop hwait).2 hkind).trans hcount) (not_le.mpr h.rateLimits)
    · exact ⟨_, _, hnext⟩
    · exact ⟨_, _, hnext⟩

end Run

/-- The request loop keeps to its two budgets exactly when no wait before a content that comes in
time is refused: one for NaN seconds, or one whose power of two no float holds. -/
theorem withinBudgets_iff (env : ChatEnv) (maxRetries maxRateLimitRetries : ℕ)
    (replies : ℕ → ChatReply) (hR : 1 ≤ maxRetries) (hL : 1 ≤ maxRateLimitRetries) :
    WithinBudgets env maxRetries maxRateLimitRetries replies ↔
      WaitsInTime env maxRetries maxRateLimitRetries replies := by
  constructor
  · intro h n text harrives i hi
    obtain ⟨⟨_, _, hsending⟩, _, _⟩ := (h.parses n text).mpr harrives
    exact waits_of_sending env hR hL (chatJson_sending_of_le env hR hL hi hsending)
  · intro hwaits
    refine ⟨⟨_, le_rfl, ?_⟩, ?_, ?_, ?_⟩
    · obtain hend | ⟨_, _, _, hinv⟩ := chatJson_invariant env hR hL
        (maxRetries + maxRateLimitRetries - 1)
      · exact hend
      · have hsum := hinv.sum
        have herrors := hinv.errors_lt
        have hlimits := hinv.rateLimits_lt
        omega
    · intro n errorAttempts rateLimitAttempts hsending hkind
      have hnext := onReply_of_kind env maxRetries maxRateLimitRetries errorAttempts
        rateLimitAttempts (replies n)
      rw [hkind] at hnext
      rw [chatJson, hsending]
      exact hnext
    · intro n errorAttempts rateLimitAttempts hsending
      have hinv := chatJson_sending env hR hL hsending
      exact ⟨hinv.errors, hinv.rateLimits⟩
    · intro n text
      constructor
      · rintro ⟨⟨_, _, hsending⟩, hkind, _⟩
        have hinv := chatJson_sending env hR hL hsending
        exact ⟨hkind, hinv.errors ▸ hinv.errors_lt, hinv.rateLimits ▸ hinv.rateLimits_lt,
          hinv.retried⟩
      · intro harrives
        obtain ⟨errorAttempts, rateLimitAttempts, hsending⟩ :=
          sending_of_arrives env hR hL harrives (hwaits n text harrives) n le_rfl
        refine ⟨⟨_, _, hsending⟩, harrives.content, ?_⟩
        have hnext := onReply_of_kind env maxRetries maxRateLimitRetries errorAttempts
          rateLimitAttempts (replies n)
        rw [harrives.content] at hnext
        rw [chatJson, hsending]
        exact hnext

def plainChatEnv : ChatEnv where
  loads content := if content = "{}" then .ok (.obj []) else .error .jsonDecodeError
  text _ := "None"
  refusesNan := false

def limited (retryAfter : Option (Option PyFloat)) : ChatReply :=
  .response ⟨429, ⟨retryAfter, none⟩, "", .error .jsonDecodeError⟩

def emptyObject : ChatReply :=
  .response ⟨200, ⟨none, none⟩, "",
    .ok (.obj [("choices", .arr [.obj [("message", .obj [("content", .str "{}")])]])])⟩

theorem withinBudgets_afterOneLimit :
    WithinBudgets plainChatEnv 1 2 (fun n => if n = 0 then limited (some (some .one))
      else emptyObject) := by
  refine (withinBudgets_iff _ 1 2 _ le_rfl one_le_two).mpr ?_
  intro n text harrives i hi
  have hfirst : i = 0 := by
    by_contra hne
    have hkind := harrives.retried i hi
    rw [if_neg hne] at hkind
    exact absurd hkind (by decide +kernel)
  subst hfirst
  exact fun _ => nofun

def longBurst (n : ℕ) : ChatReply := if n < 1025 then limited none else emptyObject

/-- The wait after the 1025th raises OverflowError, with one more in the budget. -/
theorem not_withinBudgets_longBurst : ¬ WithinBudgets plainChatEnv 1 1026 longBurst := by
  intro h
  have hkind : ∀ i < 1025, (longBurst i).kind = .rateLimited := by
    intro i hi
    rw [longBurst, if_pos hi]
    rfl
  have hlimits : ∀ n ≤ 1025, rateLimitsBefore longBurst n = n := fun n hn =>
    Nat.count_iff_forall.mpr fun i hi => hkind i (hi.trans_le hn)
  have herrors : errorsBefore longBurst 1025 = 0 :=
    Nat.count_iff_forall_not.mpr fun i hi => by rw [hkind i hi]; decide
  have harrives : ArrivesInTime 1 1026 longBurst 1025 "{}" := by
    refine ⟨by decide +kernel, ?_, ?_, fun i hi => .inr (hkind i hi)⟩
    · rw [herrors]
      decide
    · rw [hlimits 1025 le_rfl]
      decide
  obtain ⟨⟨_, _, hsending⟩, _⟩ := (h.parses 1025 "{}").mpr harrives
  have hwaits := waits_of_sending plainChatEnv le_rfl (by decide) hsending
  rw [hlimits 1024 (by decide), longBurst, if_pos (by decide)] at hwaits
  exact absurd hwaits (lt_irrefl 1024)

end KalshiAgent
