import KalshiAgent.Kalshi.Request
import KalshiAgent.Safety.CancelAll

/-! How far `cancel_all_resting` gets. Its loop goes on after a `KalshiAPIError`; an authentication
error or the exception of httpx itself leaves it, with the rest of the book resting. -/

namespace KalshiAgent

def cancelAttempts (calls : ℕ → CancelCall) : List ServerOrder → (i : ℕ) → List ServerOrder
  | [], _ => []
  | o :: listed, i =>
    o :: match (calls i).result with
      | .ok () => cancelAttempts calls listed (i + 1)
      | .error (.api _ _) => cancelAttempts calls listed (i + 1)
      | .error _ => []

def CancelCall.GoesOn (call : CancelCall) : Prop :=
  match call.result with
  | .ok () => True
  | .error (.api _ _) => True
  | .error _ => False

def CancelCall.succeeds (call : CancelCall) : Bool :=
  match call.result with
  | .ok () => true
  | .error _ => false

/-- Every listed order is attempted, once, and the number that is returned is that of the
successes. -/
structure AttemptsEvery (calls : ℕ → CancelCall) (listed server : List ServerOrder) : Prop where
  attempts : cancelAttempts calls listed 0 = listed
  result : (cancelAllResting calls (.ok listed) server).2 =
    .ok ((List.range listed.length).countP (fun i => (calls i).succeeds))

section
variable {calls : ℕ → CancelCall}

theorem CancelCall.goesOn_cases (call : CancelCall) :
    (call.GoesOn ∧ (call.result = .ok () ∧ call.succeeds = true ∨
        ∃ statusCode body, call.result = .error (.api statusCode body) ∧ call.succeeds = false)) ∨
      (¬ call.GoesOn ∧ ∃ e, call.result = .error e ∧ ∀ statusCode body, e ≠ .api statusCode body) := by
  unfold GoesOn succeeds
  cases call.result with
  | ok => exact .inl ⟨trivial, .inl ⟨rfl, rfl⟩⟩
  | error e =>
    cases e with
    | api statusCode body => exact .inl ⟨trivial, .inr ⟨statusCode, body, rfl, rfl⟩⟩
    | auth message => exact .inr ⟨id, _, rfl, nofun⟩
    | other message => exact .inr ⟨id, _, rfl, nofun⟩

section Turn
variable {i : ℕ} (o : ServerOrder) (listed : List ServerOrder)

theorem cancelAttempts_goesOn (h : (calls i).GoesOn) :
    cancelAttempts calls (o :: listed) i = o :: cancelAttempts calls listed (i + 1) := by
  rw [cancelAttempts]
  obtain ⟨_, ⟨hok, _⟩ | ⟨_, _, hapi, _⟩⟩ | ⟨hstops, _⟩ := (calls i).goesOn_cases
  · rw [hok]
  · rw [hapi]
  · exact absurd h hstops

theorem cancelEach_goesOn (h : (calls i).GoesOn) (n : ℤ) (server : List ServerOrder) :
    (cancelEach calls (o :: listed) i n server).2 =
      (cancelEach calls listed (i + 1) (n + (calls i).succeeds.toNat)
        (applyMoves server ((calls i).moves o.orderId))).2 := by
  rw [cancelEach]
  obtain ⟨_, ⟨hok, hsucceeds⟩ | ⟨_, _, hapi, hfails⟩⟩ | ⟨hstops, _⟩ := (calls i).goesOn_cases
  · rw [hok, hsucceeds]
    rfl
  · rw [hapi, hfails]
    simp
  · exact absurd h hstops

theorem cancelEach_stops (h : ¬ (calls i).GoesOn) (n : ℤ) (server : List ServerOrder) :
    ∃ e, (cancelEach calls (o :: listed) i n server).2 = .error e := by
  rw [cancelEach]
  obtain ⟨hgoes, _⟩ | ⟨_, e, he, hother⟩ := (calls i).goesOn_cases
  · exact absurd hgoes h
  · refine ⟨e, ?_⟩
    rw [he]
    cases e with
    | api statusCode body => exact absurd rfl (hother statusCode body)
    | auth message => rfl
    | other message => rfl

end Turn

theorem cancelEach_of_goesOn (listed : List ServerOrder) (i : ℕ) (n : ℤ) (server : List ServerOrder)
    (h : ∀ j < listed.length, (calls (i + j)).GoesOn) :
    cancelAttempts calls listed i = listed ∧ (cancelEach calls listed i n server).2 =
      .ok (n + (List.range' i listed.length).countP (fun j => (calls j).succeeds)) := by
  induction listed generalizing i n server with
  | nil => exact ⟨rfl, by simp [cancelEach]⟩
  | cons o listed ih =>
    have hfirst : (calls i).GoesOn := h 0 (Nat.zero_lt_succ _)
    have hrest : ∀ j < listed.length, (calls (i + 1 + j)).GoesOn := by
      intro j hj
      rw [Nat.add_assoc, Nat.add_comm 1 j]
      exact h (j + 1) (Nat.succ_lt_succ hj)
    obtain ⟨hattempts, hresult⟩ := ih (i + 1) (n + (calls i).succeeds.toNat)
      (applyMoves server ((calls i).moves o.orderId)) hrest
    constructor
    · rw [cancelAttempts_goesOn o listed hfirst, hattempts]
    · rw [cancelEach_goesOn o listed hfirst, hresult, List.length_cons, List.range'_succ,
        List.countP_cons, Nat.cast_add, add_assoc, add_comm (((calls i).succeeds.toNat : ℕ) : ℤ)]
      cases (calls i).succeeds <;> rfl

theorem goesOn_of_cancelEach_ok (listed : List ServerOrder) (i : ℕ) (n m : ℤ)
    (server : List ServerOrder) (h : (cancelEach calls listed i n server).2 = .ok m) :
    ∀ j < listed.length, (calls (i + j)).GoesOn := by
  induction listed generalizing i n server with
  | nil => exact fun j hj => absurd hj (Nat.not_lt_zero j)
  | cons o listed ih =>
    by_cases hfirst : (calls i).GoesOn
    · rw [cancelEach_goesOn o listed hfirst] at h
      intro j hj
      cases j with
      | zero => exact hfirst
      | succ j =>
        rw [Nat.add_comm j 1, ← Nat.add_assoc]
        exact ih _ _ _ h j (Nat.lt_of_succ_lt_succ hj)
    · obtain ⟨e, he⟩ := cancelEach_stops o listed hfirst n server
      cases he.symm.trans h

end

/-- Cancel-all attempts every listed order and returns the number of successes exactly when no call
ends otherwise than with success or with a `KalshiAPIError`. -/
theorem attemptsEvery_iff (calls : ℕ → CancelCall) (listed server : List ServerOrder) :
    AttemptsEvery calls listed server ↔ ∀ j < listed.length, (calls j).GoesOn := by
  constructor
  · intro h
    have hgoes := goesOn_of_cancelEach_ok listed 0 0 _ server h.result
    simpa only [Nat.zero_add] using hgoes
  · intro h
    obtain ⟨hattempts, hresult⟩ := cancelEach_of_goesOn listed 0 0 server
      (by simpa only [Nat.zero_add] using h)
    refine ⟨hattempts, hresult.trans ?_⟩
    rw [zero_add, List.range_eq_range']

/-- `cancel_order` over what its requests come to: no result when it sleeps for ever. -/
def cancelOrder (refusesNan : Bool) (orderId : String) (outcomes : ℕ → HttpOutcome (List ℕ)) :
    Option (Except ClientError Unit) :=
  match (request refusesNan "DELETE" ("/portfolio/orders/" ++ orderId) maxRetries outcomes).phase with
  | .finished (.ok _) => some (.ok ())
  | .finished (.error e) => some (.error e)
  | _ => none

def secondCallUnreachable (i : ℕ) : CancelCall :=
  match i with
  | 1 => ⟨[], false, .error (.other "All connection attempts failed"), nofun⟩
  | _ => ⟨[], true, .ok (), fun _ => rfl⟩

/-- One call in three cannot reach the exchange: the third order is not attempted. -/
theorem not_attemptsEvery_unreachable :
    let listed : List ServerOrder :=
      [⟨"k1", "c1", .resting⟩, ⟨"k2", "c2", .resting⟩, ⟨"k3", "c3", .resting⟩]
    cancelAttempts secondCallUnreachable listed 0 = listed.take 2 ∧
      ¬ AttemptsEvery secondCallUnreachable listed listed :=
  ⟨rfl, fun h => absurd h.attempts (by decide)⟩

end KalshiAgent
