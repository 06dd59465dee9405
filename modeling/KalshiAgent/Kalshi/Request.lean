import KalshiAgent.Kalshi.Client
import Mathlib.Order.Basic

/-! The whole of `_request`: its for loop over the attempts, for every method, path and number of
retries, against every sequence of replies. Its callers handle `KalshiAPIError` and
`KalshiAuthError` alone. -/

namespace KalshiAgent

/-- The content of a response: nothing, JSON, or bytes that `resp.json()` cannot decode. -/
inductive Content (β : Type)
  | empty
  | json (value : β)
  | undecodable (message : String)

inductive HttpOutcome (β : Type)
  | httpError (message : String)
  | response (statusCode : ℕ) (text : String) (retryAfter : Option FloatText) (content : Content β)

structure Transmission where
  method : String
  path : String
  deriving DecidableEq

structure RequestRun (β : Type) where
  transmitted : List Transmission
  phase : RequestPhase β

def Content.decode {β : Type} [EmptyCollection β] : Content β → Except ClientError β
  | .empty => .ok ∅
  | .json value => .ok value
  | .undecodable message => .error (.other message)

def HttpOutcome.reply {β : Type} [EmptyCollection β] (refusesNan : Bool) :
    HttpOutcome β → HttpReply β
  | .httpError message => .httpError message
  | .response statusCode text retryAfter content =>
    .response statusCode text (retryAfterSleep refusesNan retryAfter) content.decode

section
variable {β : Type} [EmptyCollection β] (refusesNan : Bool) (method path : String)

/-- The loop of `_request` with `remaining` attempts to go. -/
def requestLoop (outcomes : ℕ → HttpOutcome β) :
    (remaining attempt : ℕ) → Option ClientError → RequestRun β
  | 0, _, lastExc => ⟨[], .finished (.error (RequestPhase.exhausted lastExc))⟩
  | remaining + 1, attempt, lastExc =>
    let run :=
      match RequestPhase.onReply attempt lastExc ((outcomes attempt).reply refusesNan) with
      | .backingOff _ lastExc => requestLoop outcomes remaining (attempt + 1) lastExc
      | phase => ⟨[], phase⟩
    { run with transmitted := ⟨method, path⟩ :: run.transmitted }

def request (maxRetries : ℕ) (outcomes : ℕ → HttpOutcome β) : RequestRun β :=
  requestLoop refusesNan method path outcomes maxRetries 0 none

end

def ClientError.Handled : ClientError → Prop
  | .api _ _ => True
  | .auth _ => True
  | .other _ => False

/-- A call that is over: it has returned a body, or raised what its callers handle. -/
def RequestPhase.Contract {β : Type} : RequestPhase β → Prop
  | .finished (.ok _) => True
  | .finished (.error e) => e.Handled
  | _ => False

namespace HttpOutcome
variable {β : Type}

def TransportError : HttpOutcome β → Prop
  | .httpError _ => True
  | .response _ _ _ _ => False

def ServerError : HttpOutcome β → Prop
  | .httpError _ => False
  | .response statusCode _ _ _ => 500 ≤ statusCode ∧ statusCode < 600

def Resumes (refusesNan : Bool) (attempt : ℕ) : HttpOutcome β → Prop
  | .httpError _ => backOffSleep attempt = .wakes
  | .response statusCode _ retryAfter _ =>
    if statusCode = 429 then retryAfterSleep refusesNan retryAfter = .wakes
    else (500 ≤ statusCode ∧ statusCode < 600) ∧ backOffSleep attempt = .wakes

def Escapes (refusesNan : Bool) (attempt : ℕ) : HttpOutcome β → Prop
  | .httpError _ => backOffSleep attempt ≠ .wakes
  | .response statusCode _ retryAfter content =>
    if statusCode = 429 then retryAfterSleep refusesNan retryAfter ≠ .wakes
    else if 500 ≤ statusCode ∧ statusCode < 600 then backOffSleep attempt ≠ .wakes
    else statusCode < 400 ∧ ∃ message, content = .undecodable message

end HttpOutcome

section
variable {β : Type} {refusesNan : Bool} {method path : String}

theorem ServerError.not_transport (outcome : HttpOutcome β) (h : outcome.ServerError) :
    ¬ outcome.TransportError := by
  cases outcome with
  | httpError message => exact h.elim
  | response statusCode text retryAfter content => exact id

theorem pause_cases (attempt : ℕ) (lastExc : Option ClientError) (sleep : Sleep) :
    (sleep = .wakes ∧ (RequestPhase.pause attempt lastExc sleep : RequestPhase β) =
        .backingOff attempt lastExc) ∨
      (sleep ≠ .wakes ∧ (∀ n e, (RequestPhase.pause attempt lastExc sleep : RequestPhase β) ≠
          .backingOff n e) ∧
        ¬ (RequestPhase.pause attempt lastExc sleep : RequestPhase β).Contract) := by
  cases sleep with
  | wakes => exact .inl ⟨rfl, rfl⟩
  | neverWakes => exact .inr ⟨nofun, nofun, id⟩
  | raises message => exact .inr ⟨nofun, nofun, id⟩

variable [EmptyCollection β]

theorem onReply_turn (refusesNan : Bool) (attempt : ℕ) (lastExc : Option ClientError)
    (outcome : HttpOutcome β) :
    (outcome.Resumes refusesNan attempt ∧ ¬ outcome.Escapes refusesNan attempt ∧
        ∃ lastExc', RequestPhase.onReply attempt lastExc (outcome.reply refusesNan) =
            .backingOff attempt lastExc' ∧
          ((RequestPhase.exhausted lastExc').Handled ↔ outcome.ServerError ∨
            (¬ outcome.TransportError ∧ (RequestPhase.exhausted lastExc).Handled))) ∨
      (¬ outcome.Resumes refusesNan attempt ∧
        (∀ n e, RequestPhase.onReply attempt lastExc (outcome.reply refusesNan) ≠ .backingOff n e) ∧
        ((RequestPhase.onReply attempt lastExc (outcome.reply refusesNan)).Contract ↔
          ¬ outcome.Escapes refusesNan attempt)) := by
  cases outcome with
  | httpError message =>
    obtain ⟨hwakes, hphase⟩ | ⟨hwakes, hover, hcontract⟩ :=
      pause_cases (β := β) attempt (some (.other message)) (backOffSleep attempt)
    · refine .inl ⟨hwakes, not_not_intro hwakes, _, hphase, ?_⟩
      simp [RequestPhase.exhausted, ClientError.Handled, HttpOutcome.ServerError,
        HttpOutcome.TransportError]
    · exact .inr ⟨hwakes, hover, iff_of_false hcontract (not_not_intro hwakes)⟩
  | response statusCode text retryAfter content =>
    simp only [HttpOutcome.reply, RequestPhase.onReply, HttpOutcome.Resumes, HttpOutcome.Escapes,
      HttpOutcome.ServerError, HttpOutcome.TransportError, not_false_eq_true, true_and]
    by_cases hlimited : statusCode = 429
    · have hserver : ¬ (500 ≤ statusCode ∧ statusCode < 600) := by omega
      simp only [if_pos hlimited, iff_false_intro hserver, false_or]
      obtain ⟨hwakes, hphase⟩ | ⟨hwakes, hover, hcontract⟩ :=
        pause_cases (β := β) attempt lastExc (retryAfterSleep refusesNan retryAfter)
      · exact .inl ⟨hwakes, not_not_intro hwakes, _, hphase, Iff.rfl⟩
      · exact .inr ⟨hwakes, hover, iff_of_false hcontract (not_not_intro hwakes)⟩
    by_cases hserver : 500 ≤ statusCode ∧ statusCode < 600
    · simp only [if_neg hlimited, iff_true_intro hserver, if_true, true_and, true_or]
      obtain ⟨hwakes, hphase⟩ | ⟨hwakes, hover, hcontract⟩ :=
        pause_cases (β := β) attempt (some (.api statusCode text)) (backOffSleep attempt)
      · exact .inl ⟨hwakes, not_not_intro hwakes, _, hphase, iff_of_true trivial trivial⟩
      · exact .inr ⟨hwakes, hover, iff_of_false hcontract (not_not_intro hwakes)⟩
    -- every other status ends the call
    refine .inr ?_
    simp only [if_neg hlimited, iff_false_intro hserver, if_false, false_and, not_false_eq_true,
      true_and]
    split_ifs with hauth herror
    · have : ¬ statusCode < 400 := by omega
      exact ⟨nofun, iff_of_true trivial (fun h => this h.1)⟩
    · exact ⟨nofun, iff_of_true trivial (fun h => absurd herror (not_le.mpr h.1))⟩
    · refine ⟨nofun, ?_⟩
      cases content with
      | empty => exact iff_of_true trivial (by simp)
      | json value => exact iff_of_true trivial (by simp)
      | undecodable message =>
        exact iff_of_false id (not_not_intro ⟨not_le.mp herror, message, rfl⟩)

theorem transmitted_requestLoop (refusesNan : Bool) (method path : String)
    (outcomes : ℕ → HttpOutcome β) (remaining attempt : ℕ)
    (lastExc : Option ClientError) :
    (requestLoop refusesNan method path outcomes remaining attempt lastExc).transmitted.length ≤
      remaining := by
  induction remaining generalizing attempt lastExc with
  | zero => exact Nat.zero_le _
  | succ remaining ih =>
    unfold requestLoop
    refine Nat.succ_le_succ ?_
    split
    · exact ih _ _
    · exact Nat.zero_le _

variable {outcomes : ℕ → HttpOutcome β} {n a : ℕ} {lastExc : Option ClientError}

theorem requestLoop_resumes {lastExc' : Option ClientError}
    (h : RequestPhase.onReply a lastExc ((outcomes a).reply refusesNan) = .backingOff a lastExc') :
    (requestLoop refusesNan method path outcomes (n + 1) a lastExc).phase =
      (requestLoop refusesNan method path outcomes n (a + 1) lastExc').phase := by
  simp only [requestLoop, h]

theorem requestLoop_over
    (h : ∀ n e, RequestPhase.onReply a lastExc ((outcomes a).reply refusesNan) ≠ .backingOff n e) :
    (requestLoop refusesNan method path outcomes (n + 1) a lastExc).phase =
      RequestPhase.onReply a lastExc ((outcomes a).reply refusesNan) := by
  unfold requestLoop
  dsimp only
  split
  · next heq => exact absurd heq (h _ _)
  · rfl

variable (refusesNan) in
/-- What the outcomes of the attempts from `a` up to `b` have to be for a call within its
contract; `remembered` says that the exception remembered from before is one the callers handle. -/
structure Kept (outcomes : ℕ → HttpOutcome β) (remembered : Prop) (a b : ℕ) : Prop where
  ends : ∀ k, a ≤ k → k < b →
    (∀ i, a ≤ i → i < k → (outcomes i).Resumes refusesNan i) → ¬ (outcomes k).Escapes refusesNan k
  last : (∀ i, a ≤ i → i < b → (outcomes i).Resumes refusesNan i) →
    remembered ∨ ∃ j, a ≤ j ∧ j < b ∧ (outcomes j).ServerError
  replaced : (∀ i, a ≤ i → i < b → (outcomes i).Resumes refusesNan i) →
    ∀ i, a ≤ i → i < b → (outcomes i).TransportError → ∃ j, i < j ∧ j < b ∧ (outcomes j).ServerError

omit [EmptyCollection β] in
theorem Kept.next_iff {outcomes : ℕ → HttpOutcome β} {remembered remembered' : Prop} {a b : ℕ}
    (hab : a < b) (hresumes : (outcomes a).Resumes refusesNan a)
    (hescapes : ¬ (outcomes a).Escapes refusesNan a)
    (hremembered : remembered' ↔
      (outcomes a).ServerError ∨ (¬ (outcomes a).TransportError ∧ remembered)) :
    Kept refusesNan outcomes remembered' (a + 1) b ↔ Kept refusesNan outcomes remembered a b := by
  have hsplit : ∀ i, a ≤ i → i = a ∨ a + 1 ≤ i := fun i h => by omega
  have hserver := ServerError.not_transport (outcomes a)
  constructor
  · rintro ⟨hends, hlast, hreplaced⟩
    refine ⟨?_, ?_, ?_⟩
    · intro k hk hkb hbefore
      obtain rfl | hk' := hsplit k hk
      · exact hescapes
      · exact hends k hk' hkb (fun i hi hik => hbefore i (Nat.le_of_succ_le hi) hik)
    · intro hall
      obtain hnow | ⟨j, hj, hjb, hS⟩ := hlast fun i hi => hall i (Nat.le_of_succ_le hi)
      · obtain hS | ⟨_, hkept⟩ := hremembered.mp hnow
        · exact .inr ⟨a, le_rfl, hab, hS⟩
        · exact .inl hkept
      · exact .inr ⟨j, Nat.le_of_succ_le hj, hjb, hS⟩
    · intro hall i hi hib hT
      have hall' : ∀ i, a + 1 ≤ i → i < b → (outcomes i).Resumes refusesNan i :=
        fun i hi => hall i (Nat.le_of_succ_le hi)
      obtain rfl | hi' := hsplit i hi
      · obtain hnow | ⟨j, hj, hjb, hS⟩ := hlast hall'
        · obtain hS | ⟨hnot, _⟩ := hremembered.mp hnow
          · exact absurd hT (hserver hS)
          · exact absurd hT hnot
        · exact ⟨j, hj, hjb, hS⟩
      · exact hreplaced hall' i hi' hib hT
  · rintro ⟨hends, hlast, hreplaced⟩
    have hmore : ∀ c, (∀ i, a + 1 ≤ i → i < c → (outcomes i).Resumes refusesNan i) →
        ∀ i, a ≤ i → i < c → (outcomes i).Resumes refusesNan i := by
      intro c hrest i hi hic
      obtain rfl | hi' := hsplit i hi
      · exact hresumes
      · exact hrest i hi' hic
    refine ⟨?_, ?_, ?_⟩
    · exact fun k hk hkb hbefore => hends k (Nat.le_of_succ_le hk) hkb (hmore k hbefore)
    · intro hall
      by_cases hT : (outcomes a).TransportError
      · obtain ⟨j, hj, hjb, hS⟩ := hreplaced (hmore b hall) a le_rfl hab hT
        exact .inr ⟨j, hj, hjb, hS⟩
      obtain hkept | ⟨j, hj, hjb, hS⟩ := hlast (hmore b hall)
      · exact .inl (hremembered.mpr (.inr ⟨hT, hkept⟩))
      · obtain rfl | hj' := hsplit j hj
        · exact .inl (hremembered.mpr (.inl hS))
        · exact .inr ⟨j, hj', hjb, hS⟩
    · exact fun hall i hi => hreplaced (hmore b hall) i (Nat.le_of_succ_le hi)

theorem requestLoop_contract (outcomes : ℕ → HttpOutcome β) (n a : ℕ)
    (lastExc : Option ClientError) :
    (requestLoop refusesNan method path outcomes n a lastExc).phase.Contract ↔
      Kept refusesNan outcomes (RequestPhase.exhausted lastExc).Handled a (a + n) := by
  induction n generalizing a lastExc with
  | zero =>
    constructor
    · exact fun h => ⟨fun k hk hka => absurd hka (not_lt.mpr hk), fun _ => .inl h,
        fun _ i hi hia => absurd hia (not_lt.mpr hi)⟩
    · intro h
      obtain hkept | ⟨j, hj, hja, _⟩ := h.last fun i hi hia => absurd hia (not_lt.mpr hi)
      · exact hkept
      · exact absurd hja (not_lt.mpr hj)
  | succ n ih =>
    obtain ⟨hresumes, hescapes, lastExc', hphase, hremembered⟩ | ⟨hends, hover, hcontract⟩ :=
      onReply_turn refusesNan a lastExc (outcomes a)
    · rw [requestLoop_resumes hphase, ih, show a + 1 + n = a + (n + 1) by omega]
      exact Kept.next_iff (Nat.lt_add_of_pos_right n.succ_pos) hresumes hescapes hremembered
    · have hstop : ¬ ∀ i, a ≤ i → i < a + (n + 1) → (outcomes i).Resumes refusesNan i :=
        fun hall => hends (hall a le_rfl (Nat.lt_add_of_pos_right n.succ_pos))
      rw [requestLoop_over hover, hcontract]
      constructor
      · intro hescapes
        refine ⟨fun k hk hkb hbefore => ?_, fun hall => absurd hall hstop, fun hall => absurd hall hstop⟩
        obtain rfl | hak := hk.eq_or_lt
        · exact hescapes
        · exact absurd (hbefore a le_rfl hak) hends
      · intro h
        exact h.ends a le_rfl (Nat.lt_add_of_pos_right n.succ_pos)
          (fun i hi hia => absurd hia (not_lt.mpr hi))

end

/-- The sequences of outcomes on which a call keeps to its contract: no reached attempt ends in a
sleep that raises or never ends, none in a success whose body cannot be decoded, and where all
attempts are used up a transport error among them is followed by a server error. -/
structure WithinContract {β : Type} (refusesNan : Bool) (maxRetries : ℕ)
    (outcomes : ℕ → HttpOutcome β) : Prop where
  ends : ∀ k < maxRetries, (∀ i < k, (outcomes i).Resumes refusesNan i) →
    ¬ (outcomes k).Escapes refusesNan k
  replaced : (∀ i < maxRetries, (outcomes i).Resumes refusesNan i) →
    ∀ i < maxRetries, (outcomes i).TransportError →
      ∃ j, i < j ∧ j < maxRetries ∧ (outcomes j).ServerError

/-- A call transmits no more than `max_retries` requests, and returns a body or raises an
exception of the client exactly on the sequences of outcomes described. -/
theorem request_contract_iff {β : Type} [EmptyCollection β] (refusesNan : Bool)
    (method path : String) (maxRetries : ℕ) (outcomes : ℕ → HttpOutcome β) :
    ((request refusesNan method path maxRetries outcomes).transmitted.length ≤ maxRetries ∧
        (request refusesNan method path maxRetries outcomes).phase.Contract) ↔
      WithinContract refusesNan maxRetries outcomes := by
  have hsent := transmitted_requestLoop refusesNan method path outcomes maxRetries 0 none
  rw [request, and_iff_right hsent, requestLoop_contract, zero_add]
  constructor
  · rintro ⟨hends, _, hreplaced⟩
    exact ⟨fun k hk hbefore => hends k (Nat.zero_le k) hk (fun i _ => hbefore i),
      fun hall i hi => hreplaced (fun i _ => hall i) i (Nat.zero_le i) hi⟩
  · rintro ⟨hends, hreplaced⟩
    exact ⟨fun k _ hk hbefore => hends k hk (fun i => hbefore i (Nat.zero_le i)),
      fun _ => .inl trivial,
      fun hall i _ hi => hreplaced (fun i => hall i (Nat.zero_le i)) i hi⟩

section
variable {β : Type} [EmptyCollection β] (refusesNan : Bool) (method path : String)
  (outcomes : ℕ → HttpOutcome β)

def RequestPhase.advance : RequestPhase β → RequestPhase β
  | .acquiring attempt lastExc => .awaiting attempt lastExc
  | .awaiting attempt lastExc => .onReply attempt lastExc ((outcomes attempt).reply refusesNan)
  | .backingOff attempt lastExc => .onWake attempt lastExc
  | phase => phase

theorem advance_requestLoop (n a : ℕ) (lastExc : Option ClientError) (hn : a + n = maxRetries) :
    ∃ k, (RequestPhase.advance refusesNan outcomes)^[k]
        (if a < maxRetries then .acquiring a lastExc
          else .finished (.error (RequestPhase.exhausted lastExc))) =
      (requestLoop refusesNan method path outcomes n a lastExc).phase := by
  induction n generalizing a lastExc with
  | zero =>
    rw [if_neg (by omega)]
    exact ⟨0, rfl⟩
  | succ n ih =>
    rw [if_pos (by omega)]
    obtain ⟨_, _, lastExc', hphase, _⟩ | ⟨_, hover, _⟩ :=
      onReply_turn refusesNan a lastExc (outcomes a)
    · obtain ⟨k, hk⟩ := ih (a + 1) lastExc' (by omega)
      refine ⟨k + 3, ?_⟩
      rw [requestLoop_resumes hphase, ← hk]
      simp only [Function.iterate_succ_apply, RequestPhase.advance, hphase, RequestPhase.onWake]
    · exact ⟨2, (requestLoop_over hover).symm⟩

theorem advance_request : ∃ k, (RequestPhase.advance refusesNan outcomes)^[k] .start =
    (request refusesNan method path maxRetries outcomes).phase :=
  advance_requestLoop refusesNan method path outcomes maxRetries 0 none (zero_add _)

end

/-- The exchange cannot be reached: the call raises the exception of httpx itself. -/
theorem not_contract_unreachable :
    ¬ (request (β := List ℕ) false "GET" "/portfolio/balance" 3
      (fun _ => .httpError "All connection attempts failed")).phase.Contract :=
  id

end KalshiAgent
