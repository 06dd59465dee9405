import KalshiAgent.Kalshi.TokenBucket

/-! What the bucket grants in any run, however soon a call comes after one that slept. The sleep
is credited to the next call, so a token is worth up to two grants: the rate is twice the one
asked for, and callers that wait in line get it. -/

namespace KalshiAgent
open Execution Metering

/-- The budget of the metering: a call may come at the very time that another has slept until. -/
def allowance (b : TokenBucket) : ℚ := max b.capacity 2

def Limiter.DoublyBounded (l : Limiter) : Prop :=
  ∀ s e, s ≤ e → (within s e l.grants : ℚ) ≤ allowance l.bucket + 2 * l.bucket.rate * (e - s)

/-- What a call that enters when the last one has left finds in the bucket. -/
def TokenBucket.credited (b : TokenBucket) (released : ℚ) : ℚ :=
  b.tokens + (released - b.last) * b.rate

structure DoubleInvariant (rate : ℚ) (l : Limiter) : Prop where
  rate_eq : l.bucket.rate = rate
  last_le : l.bucket.last ≤ l.released
  tokens_nonneg : 0 ≤ l.bucket.tokens
  metered : Metered (2 * rate) (allowance l.bucket) (l.bucket.credited l.released) l.released l.grants

variable {rate t : ℚ} {l l' : Limiter}

theorem DoubleInvariant.new (rate : ℚ) (rate_pos : 0 < rate) (now : ℚ) :
    DoubleInvariant rate (.new rate rate_pos now) := by
  have hfull : (0 : ℚ) ≤ max rate 1 := rate_pos.le.trans (le_max_left _ _)
  have hcredited : (TokenBucket.new rate rate_pos now).credited now = max rate 1 := by
    simp [TokenBucket.credited, TokenBucket.new]
  refine ⟨rfl, le_refl now, hfull, ?_⟩
  apply Metered.start
  · linarith
  · exact zero_le_two.trans (le_max_right _ _)
  · exact hcredited.trans_le (le_max_left _ _)

theorem TokenBucket.refilled_le (b : TokenBucket) (released now : ℚ) :
    b.refilled now ≤ b.credited released + b.rate * (now - released) := by
  have hsplit : b.credited released + b.rate * (now - released) =
      b.tokens + (now - b.last) * b.rate := by
    rw [credited]
    ring
  rw [hsplit]
  exact min_le_right _ _

theorem TokenBucket.refilled_nonneg (b : TokenBucket) {now : ℚ} (htokens : 0 ≤ b.tokens)
    (hlast : b.last ≤ now) : 0 ≤ b.refilled now := by
  have hgrown : 0 ≤ (now - b.last) * b.rate :=
    mul_nonneg (sub_nonneg.mpr hlast) b.rate_pos.le
  apply le_min
  · exact zero_le_one.trans b.one_le_capacity
  · linarith

theorem DoubleInvariant.step (h : DoubleInvariant rate l) (hstep : limiterStep l t = some l') :
    DoubleInvariant rate l' := by
  have hrate := l.bucket.rate_pos
  have heq := h.rate_eq
  have hmetered := h.metered
  have hentry : l.released ≤ max t l.released := le_max_right _ _
  have htwo : 2 ≤ allowance l.bucket := le_max_right _ _
  rw [limiterStep] at hstep
  split_ifs at hstep
  generalize max t l.released = now at hentry hstep
  have hfound := l.bucket.refilled_le l.released now
  have hsome : 0 ≤ l.bucket.refilled now :=
    l.bucket.refilled_nonneg h.tokens_nonneg (h.last_le.trans hentry)
  have hgrown : 0 ≤ l.bucket.rate * (now - l.released) :=
    mul_nonneg hrate.le (sub_nonneg.mpr hentry)
  have hrate' : (0 : ℚ) ≤ 2 * rate := by linarith
  rcases l.bucket.acquire_cases now with ⟨hshort, hacquire⟩ | ⟨henough, hacquire⟩
  · rw [hacquire] at hstep
    cases hstep
    -- the sleep is credited as if it had not been waited for
    have hwait : 0 < (1 - l.bucket.refilled now) / l.bucket.rate := div_pos (by linarith) hrate
    have hearned : l.bucket.rate * ((1 - l.bucket.refilled now) / l.bucket.rate) =
        1 - l.bucket.refilled now := mul_div_cancel₀ _ hrate.ne'
    generalize (1 - l.bucket.refilled now) / l.bucket.rate = wait at hwait hearned
    have hleft : TokenBucket.credited { l.bucket with tokens := 0, last := now } (now + wait) =
        1 - l.bucket.refilled now := by
      rw [← hearned, TokenBucket.credited]
      ring
    refine ⟨heq, by linarith, le_rfl, ?_⟩
    dsimp only
    rw [hleft]
    apply hmetered.grant hrate' (by linarith) (by linarith)
    · exact le_trans (by linarith) htwo
    · rw [← heq]
      have hpaid : 2 * l.bucket.rate * (now + wait - l.released) =
          2 * (l.bucket.rate * (now - l.released)) + 2 * (l.bucket.rate * wait) := by ring
      linarith
  · rw [hacquire] at hstep
    cases hstep
    have hleft : TokenBucket.credited { l.bucket with tokens := l.bucket.refilled now - 1, last := now }
        now = l.bucket.refilled now - 1 := by
      rw [TokenBucket.credited, sub_self, zero_mul, add_zero]
    have hfull : l.bucket.refilled now ≤ allowance l.bucket :=
      (min_le_left _ _).trans (le_max_left _ _)
    refine ⟨heq, le_rfl, sub_nonneg.mpr henough, ?_⟩
    dsimp only
    rw [hleft]
    apply hmetered.grant hrate' hentry (sub_nonneg.mpr henough)
    · exact (sub_add_cancel _ _).trans_le hfull
    · rw [← heq]
      linarith

theorem limiterStep_eq_some {b : TokenBucket} {granted : ℚ} (ht : l.requested ≤ t)
    (hacquire : l.bucket.acquire (max t l.released) = (b, granted)) :
    limiterStep l t = some ⟨b, granted, t, l.grants ++ [granted]⟩ := by
  rw [limiterStep, if_neg (not_lt.mpr ht), hacquire]

section Line
variable {n : ℕ} (hn : 0 < (n : ℚ))

def earned (n k : ℕ) : ℚ := k / n

/-- The grants to a line of callers: those that empty the bucket, and a pair for each token. -/
def lineGrants (n : ℕ) : ℕ → List ℚ
  | 0 => List.replicate n 0
  | k + 1 => lineGrants n k ++ [earned n (k + 1), earned n (k + 1)]

def spending (j : ℕ) : Limiter := ⟨⟨n, n - j, 0, hn⟩, 0, 0, List.replicate j 0⟩

def emptied (k : ℕ) : TokenBucket := ⟨n, 0, earned n k, hn⟩

def drained (k : ℕ) : Limiter := ⟨emptied hn k, earned n k, 0, lineGrants n k⟩

theorem earned_succ (n k : ℕ) : earned n (k + 1) = earned n k + 1 / n := by
  rw [earned, earned, Nat.cast_succ, add_div]

theorem earned_nonneg (n k : ℕ) : 0 ≤ earned n k := by
  rw [earned]
  positivity

theorem earned_mono (n k : ℕ) : earned n k ≤ earned n (k + 1) := by
  rw [earned_succ]
  exact le_add_of_nonneg_right (by positivity)

theorem spending_step {j : ℕ} (hj : j < n) :
    limiterStep (spending hn j) 0 = some (spending hn (j + 1)) := by
  have hmore : (1 : ℚ) ≤ n - j := by
    have hle : ((j + 1 : ℕ) : ℚ) ≤ n := Nat.cast_le.mpr hj
    push_cast at hle
    linarith
  have hone : (1 : ℚ) ≤ n := hmore.trans (sub_le_self _ (Nat.cast_nonneg j))
  have hfound : (spending hn j).bucket.refilled 0 = n - j := by
    rw [TokenBucket.refilled, TokenBucket.capacity]
    dsimp only [spending]
    rw [sub_self, zero_mul, add_zero, max_eq_left hone]
    exact min_eq_right (sub_le_self _ (Nat.cast_nonneg j))
  have hleft : (n - j - 1 : ℚ) = n - (j + 1 : ℕ) := by
    push_cast
    ring
  have hacquire : (spending hn j).bucket.acquire 0 = (⟨n, n - (j + 1 : ℕ), 0, hn⟩, 0) := by
    rw [TokenBucket.acquire, hfound, if_neg (not_lt.mpr hmore), hleft]
    rfl
  have hentry : max 0 (spending hn j).released = 0 := max_self 0
  have hstep := limiterStep_eq_some (l := spending hn j) (t := 0) le_rfl
    ((congrArg _ hentry).trans hacquire)
  rw [hstep, spending, spending, List.replicate_succ']

theorem emptied_refilled (k : ℕ) (wait : ℚ) :
    (emptied hn k).refilled (earned n k + wait) = min (max (n : ℚ) 1) (wait * n) := by
  rw [TokenBucket.refilled, TokenBucket.capacity, emptied]
  dsimp only
  rw [add_sub_cancel_left, zero_add]

theorem emptied_sleeps (k : ℕ) :
    (emptied hn k).acquire (earned n k) = (emptied hn k, earned n (k + 1)) := by
  have hfound := emptied_refilled hn k 0
  have hfull : (0 : ℚ) ≤ max (n : ℚ) 1 := zero_le_one.trans (le_max_right _ _)
  rw [add_zero, zero_mul, min_eq_right hfull] at hfound
  rw [TokenBucket.acquire, hfound, if_pos zero_lt_one, earned_succ]
  dsimp only [emptied]
  rw [sub_zero]

theorem emptied_follows (k : ℕ) :
    (emptied hn k).acquire (earned n (k + 1)) = (emptied hn (k + 1), earned n (k + 1)) := by
  have hfound := emptied_refilled hn k (1 / n)
  rw [div_mul_cancel₀ _ hn.ne', min_eq_right (le_max_right _ _), ← earned_succ] at hfound
  rw [TokenBucket.acquire, hfound, if_neg (lt_irrefl _)]
  dsimp only [emptied]
  rw [sub_self]

theorem drained_step (k : ℕ) :
    exec limiterStep (drained hn k) [0, 0] = some (drained hn (k + 1)) := by
  have hfirst := limiterStep_eq_some (l := drained hn k) (t := 0) le_rfl
    ((congrArg _ (max_eq_right (earned_nonneg n k))).trans (emptied_sleeps hn k))
  have hsecond := limiterStep_eq_some (l := ⟨emptied hn k, earned n (k + 1), 0,
    lineGrants n k ++ [earned n (k + 1)]⟩) (t := 0) le_rfl
    ((congrArg _ (max_eq_right (earned_nonneg n (k + 1)))).trans (emptied_follows hn k))
  rw [exec, hfirst, Option.bind_some, exec]
  dsimp only [drained] at hsecond ⊢
  rw [hsecond, Option.bind_some, exec, lineGrants, List.append_assoc, List.singleton_append]

theorem exec_spending {j : ℕ} (hj : j ≤ n) :
    exec limiterStep (spending hn 0) (List.replicate j 0) = some (spending hn j) := by
  induction j with
  | zero => rfl
  | succ j ih =>
    rw [List.replicate_succ', exec_append, ih (Nat.le_of_succ_le hj), Option.bind_some, exec,
      spending_step hn hj]
    rfl

theorem spending_all : spending hn n = drained hn 0 := by
  have hzero : earned n 0 = 0 := by rw [earned, Nat.cast_zero, zero_div]
  rw [spending, drained, emptied, sub_self, hzero, lineGrants]

theorem exec_drained (k : ℕ) :
    exec limiterStep (drained hn 0) (List.replicate (2 * k) 0) = some (drained hn k) := by
  induction k with
  | zero => rfl
  | succ k ih =>
    have hpair : List.replicate (2 * (k + 1)) (0 : ℚ) = List.replicate (2 * k) 0 ++ [0, 0] :=
      List.replicate_add _ _ _
    rw [hpair, exec_append, ih, Option.bind_some, drained_step]

theorem lineGrants_length (n k : ℕ) : (lineGrants n k).length = n + 2 * k := by
  induction k with
  | zero => exact List.length_replicate
  | succ k ih =>
    rw [lineGrants, List.length_append, ih]
    rfl

theorem lineGrants_within {k : ℕ} : ∀ g ∈ lineGrants n k, 0 ≤ g ∧ g ≤ earned n k := by
  induction k with
  | zero =>
    intro g hg
    rw [List.eq_of_mem_replicate hg]
    exact ⟨le_rfl, earned_nonneg n 0⟩
  | succ k ih =>
    intro g hg
    rcases List.mem_append.mp hg with hg | hg
    · exact ⟨(ih g hg).1, (ih g hg).2.trans (earned_mono n k)⟩
    · have heq : g = earned n (k + 1) := by simpa using hg
      exact ⟨heq ▸ earned_nonneg n (k + 1), heq.le⟩

end Line

theorem cast_pos_of_two_le {n : ℕ} (hn : 2 ≤ n) : 0 < (n : ℚ) :=
  Nat.cast_pos.mpr (Nat.zero_lt_of_lt hn)

end KalshiAgent
