import KalshiAgent.Lib.Execution
import KalshiAgent.Lib.Metering
import Mathlib.Data.Rat.Cast.Order
import Mathlib.Tactic.FieldSimp

/-! The token bucket in front of every request. Calls queue on its lock and leave it when they
are granted, after a sleep of exactly the length asked for. -/

namespace KalshiAgent
open Execution Metering

structure TokenBucket where
  rate : ℚ
  tokens : ℚ
  last : ℚ
  rate_pos : 0 < rate

namespace TokenBucket

def capacity (b : TokenBucket) : ℚ := max b.rate 1

def new (rate : ℚ) (rate_pos : 0 < rate) (now : ℚ) : TokenBucket :=
  { rate := rate, tokens := max rate 1, last := now, rate_pos := rate_pos }

def refilled (b : TokenBucket) (now : ℚ) : ℚ :=
  let elapsed := now - b.last
  min b.capacity (b.tokens + elapsed * b.rate)

/-- The body of `acquire`, entered at the time `now`: the bucket it leaves and when it returns. -/
def acquire (b : TokenBucket) (now : ℚ) : TokenBucket × ℚ :=
  let tokens := b.refilled now
  if tokens < 1 then
    let wait := (1 - tokens) / b.rate
    -- `_last` is from before the sleep
    ({ b with tokens := 0, last := now }, now + wait)
  else ({ b with tokens := tokens - 1, last := now }, now)

end TokenBucket

/-- A bucket with its lock: when the last holder left it, when the last call came, and the
times of all grants. -/
structure Limiter where
  bucket : TokenBucket
  released : ℚ
  requested : ℚ
  grants : List ℚ

def Limiter.new (rate : ℚ) (rate_pos : 0 < rate) (now : ℚ) : Limiter :=
  ⟨.new rate rate_pos now, now, now, []⟩

def limiterStep (l : Limiter) (t : ℚ) : Option Limiter :=
  if t < l.requested then none
  else
    let (bucket, granted) := l.bucket.acquire (max t l.released)
    some ⟨bucket, granted, t, l.grants ++ [granted]⟩

/-- No closed interval has more grants than the capacity and the refill over it. -/
def Limiter.Bounded (l : Limiter) : Prop :=
  ∀ s e, s ≤ e → (within s e l.grants : ℚ) ≤ l.bucket.capacity + l.bucket.rate * (e - s)

/-- Where the call before has slept, the bucket has had the time since to fill up. -/
def SleepForgotten (l : Limiter) (t : ℚ) : Prop :=
  l.bucket.last < l.released → l.released + l.bucket.capacity / l.bucket.rate ≤ t

instance (l : Limiter) (t : ℚ) : Decidable (SleepForgotten l t) :=
  inferInstanceAs (Decidable (_ → _))

/-- The tokens are what the grants have left of the budget, as of the last grant. -/
structure LimiterInvariant (rate : ℚ) (l : Limiter) : Prop where
  rate_eq : l.bucket.rate = rate
  last_le : l.bucket.last ≤ l.released
  tokens_nonneg : 0 ≤ l.bucket.tokens
  slept : l.bucket.last < l.released → l.bucket.tokens = 0
  metered : Metered rate l.bucket.capacity l.bucket.tokens l.released l.grants

theorem TokenBucket.one_le_capacity (b : TokenBucket) : 1 ≤ b.capacity := le_max_right _ _

theorem LimiterInvariant.new (rate : ℚ) (rate_pos : 0 < rate) (now : ℚ) :
    LimiterInvariant rate (.new rate rate_pos now) := by
  have hfull : (0 : ℚ) ≤ max rate 1 := rate_pos.le.trans (le_max_left _ _)
  constructor
  · rfl
  · exact le_refl now
  · exact hfull
  · exact fun h => absurd h (lt_irrefl now)
  · exact Metered.start rate_pos.le hfull (le_refl (max rate 1))

theorem LimiterInvariant.refilled {rate : ℚ} {l : Limiter} {t : ℚ} (h : LimiterInvariant rate l)
    (hguard : SleepForgotten l t) :
    l.bucket.refilled (max t l.released) = min l.bucket.capacity
      (l.bucket.tokens + (max t l.released - l.released) * l.bucket.rate) := by
  have hrate := l.bucket.rate_pos
  rcases h.last_le.lt_or_eq with hslept | hawake
  · have hlong := hguard hslept
    have hidle : 0 ≤ l.bucket.capacity / l.bucket.rate :=
      div_nonneg (zero_le_one.trans l.bucket.one_le_capacity) hrate.le
    have hfull : l.bucket.capacity ≤ (t - l.released) * l.bucket.rate := by
      rw [← div_le_iff₀ hrate]
      linarith
    have hmore : (t - l.released) * l.bucket.rate ≤ (t - l.bucket.last) * l.bucket.rate :=
      mul_le_mul_of_nonneg_right (by linarith) hrate.le
    rw [max_eq_left (show l.released ≤ t by linarith), TokenBucket.refilled, h.slept hslept,
      zero_add, zero_add, min_eq_left (hfull.trans hmore), min_eq_left hfull]
  · rw [TokenBucket.refilled, hawake]

/-- What a call does, asleep or not: it takes one token out of what has come in by its grant. -/
theorem TokenBucket.acquire_cases (b : TokenBucket) (now : ℚ) :
    (b.refilled now < 1 ∧ b.acquire now =
        ({ b with tokens := 0, last := now }, now + (1 - b.refilled now) / b.rate)) ∨
      (1 ≤ b.refilled now ∧
        b.acquire now = ({ b with tokens := b.refilled now - 1, last := now }, now)) := by
  unfold acquire
  dsimp only
  split_ifs with h
  · exact .inl ⟨h, rfl⟩
  · exact .inr ⟨not_lt.mp h, rfl⟩

theorem LimiterInvariant.step {rate : ℚ} {l l' : Limiter} {t : ℚ} (h : LimiterInvariant rate l)
    (hguard : SleepForgotten l t) (hstep : limiterStep l t = some l') : LimiterInvariant rate l' := by
  have hfound := h.refilled hguard
  have hrate := l.bucket.rate_pos
  have hentry : l.released ≤ max t l.released := le_max_right _ _
  have hcap := l.bucket.one_le_capacity
  have hmetered := h.metered
  have heq := h.rate_eq
  rw [limiterStep] at hstep
  split_ifs at hstep
  generalize max t l.released = now at hfound hentry hstep
  have hgrown : 0 ≤ (now - l.released) * l.bucket.rate :=
    mul_nonneg (sub_nonneg.mpr hentry) hrate.le
  rcases l.bucket.acquire_cases now with ⟨hshort, hacquire⟩ | ⟨henough, hacquire⟩
  · rw [hacquire] at hstep
    cases hstep
    -- short of one token, the bucket is below its capacity
    have hsum : l.bucket.refilled now = l.bucket.tokens + (now - l.released) * l.bucket.rate := by
      rw [hfound]
      apply min_eq_right
      by_contra hfull
      rw [hfound, min_eq_left (not_le.mp hfull).le] at hshort
      linarith
    have hwait : 0 < (1 - l.bucket.refilled now) / l.bucket.rate :=
      div_pos (by linarith) hrate
    have hearned : (1 - l.bucket.refilled now) / l.bucket.rate * l.bucket.rate =
        1 - l.bucket.refilled now := div_mul_cancel₀ _ hrate.ne'
    refine ⟨heq, ?_, le_rfl, fun _ => rfl, ?_⟩
    · dsimp only
      linarith
    · apply hmetered.grant (heq ▸ hrate.le) (by linarith) le_rfl (by linarith)
      rw [← heq]
      linarith
  · rw [hacquire] at hstep
    cases hstep
    have hsum : l.bucket.refilled now ≤ l.bucket.tokens + (now - l.released) * l.bucket.rate :=
      hfound.trans_le (min_le_right _ _)
    have hfull : l.bucket.refilled now ≤ l.bucket.capacity := hfound.trans_le (min_le_left _ _)
    refine ⟨heq, le_rfl, sub_nonneg.mpr henough, fun hslept => absurd hslept (lt_irrefl _), ?_⟩
    apply hmetered.grant (heq ▸ hrate.le) hentry (sub_nonneg.mpr henough)
    · linarith
    · rw [← heq]
      linarith

/-- In every run in which no call comes too soon after one that slept, the rate is bounded. -/
theorem grants_bounded (rate : ℚ) (rate_pos : 0 < rate) (now : ℚ) (requests : List ℚ)
    (hguard : AllSteps limiterStep SleepForgotten (.new rate rate_pos now) requests) :
    AllStates limiterStep Limiter.Bounded (.new rate rate_pos now) requests := by
  apply allStates_of_allSteps (I := LimiterInvariant rate) _ _ (.new rate rate_pos now) hguard
  · exact fun _ _ _ h hforgotten hstep => h.step hforgotten hstep
  · intro l h s e hse
    have hbound := h.metered.bounded s e hse
    rwa [← h.rate_eq] at hbound

theorem eight_pos : (0 : ℚ) < 8 := by norm_num

theorem grants_bounded_afterIdling :
    AllStates limiterStep Limiter.Bounded (.new 8 eight_pos 0)
      (List.replicate 9 0 ++ [9 / 8]) :=
  grants_bounded 8 eight_pos 0 _ (by decide +kernel)

/-- Ten calls at once: the eighth of a second that the ninth slept is credited to the tenth, and
ten are granted in an eighth of a second where the bound is nine. -/
theorem not_grants_bounded :
    ¬ AllStates limiterStep Limiter.Bounded (.new 8 eight_pos 0) (List.replicate 10 0) := by
  intro h
  have hrun : (exec limiterStep (.new 8 eight_pos 0) (List.replicate 10 0)).map
      (fun l => (within 0 (1 / 8) l.grants, l.bucket.rate)) = some (10, 8) := by
    decide +kernel
  obtain ⟨l, hbounded, hview⟩ := h.last_view hrun
  obtain ⟨hgrants, hrate⟩ := Prod.mk.inj hview
  have hnine := hbounded 0 (1 / 8) (by norm_num)
  rw [hgrants, TokenBucket.capacity, hrate] at hnine
  norm_num at hnine

end KalshiAgent
