import KalshiAgent.Kalshi.Client
import KalshiAgent.Lib.Execution

/-! The bankroll provider: the balance, cached for a time to live. A run of `get` calls returns the
last balance that was fetched, as long as `get_balance` fails with nothing but a `KalshiAPIError`. -/

namespace KalshiAgent
open Execution

structure Bankroll where
  ttl : ℚ
  fallback : ℚ
  cached : Option ℚ
  -- a reading of `time.monotonic`
  lastFetch : ℚ

namespace Bankroll

def fresh (bank : Bankroll) (monotonic : ℚ) : Option ℚ :=
  match bank.cached with
  | none => none
  | some dollars => if bank.ttl < monotonic - bank.lastFetch then none else some dollars

/-- `refresh`, once `get_balance` is over: only a `KalshiAPIError` falls back. -/
def refresh (bank : Bankroll) (fetched : Except ClientError DecimalText) (monotonic : ℚ) :
    Bankroll × Except ClientError ℚ :=
  match fetched with
  | .ok balance =>
    match priceStrToDecimal balance with
    | none => (bank, .error (.other "InvalidOperation"))
    | some dollars => ({ bank with cached := some dollars, lastFetch := monotonic }, .ok dollars)
  | .error (.api _ _) =>
    let dollars := bank.cached.getD bank.fallback
    ({ bank with cached := some dollars }, .ok dollars)
  | .error e => (bank, .error e)

/-- `get`: `held` is the provider when the call has its lock, after another refresh perhaps. -/
def get (bank held : Bankroll) (asked : ℚ) (fetched : Except ClientError DecimalText)
    (answered : ℚ) : Bankroll × Except ClientError ℚ :=
  match bank.fresh asked with
  | some dollars => (bank, .ok dollars)
  | none => held.refresh fetched answered

end Bankroll

theorem Bankroll.cached_of_fresh {bank : Bankroll} {asked dollars : ℚ}
    (h : bank.fresh asked = some dollars) : bank.cached = some dollars := by
  unfold fresh at h
  cases hcached : bank.cached with
  | none => simp [hcached] at h
  | some d =>
    simp only [hcached] at h
    split_ifs at h
    exact h

theorem Bankroll.ttl_lt_of_not_fresh {bank : Bankroll} {asked dollars : ℚ}
    (hcached : bank.cached = some dollars) (h : bank.fresh asked = none) :
    bank.ttl < asked - bank.lastFetch := by
  unfold fresh at h
  simp only [hcached] at h
  by_contra hfresh
  rw [if_neg hfresh] at h
  cases h

def BalanceKnown : Except ClientError DecimalText → Prop
  | .ok balance => priceStrToDecimal balance ≠ none
  | .error (.api _ _) => True
  | .error _ => False

theorem Bankroll.get_isOk_iff (bank held : Bankroll) (asked : ℚ)
    (fetched : Except ClientError DecimalText) (answered : ℚ) :
    (∃ dollars, (bank.get held asked fetched answered).2 = .ok dollars) ↔
      bank.fresh asked ≠ none ∨ BalanceKnown fetched := by
  unfold get
  cases hfresh : bank.fresh asked with
  | some dollars => exact iff_of_true ⟨dollars, rfl⟩ (.inl (Option.some_ne_none dollars))
  | none =>
    simp only [ne_eq, not_true_eq_false, false_or]
    unfold refresh BalanceKnown
    cases fetched with
    | ok balance =>
      dsimp only
      cases hread : priceStrToDecimal balance with
      | none => exact iff_of_false nofun (fun h => h rfl)
      | some dollars => exact iff_of_true ⟨dollars, rfl⟩ (Option.some_ne_none dollars)
    | error e =>
      cases e with
      | api statusCode body => exact iff_of_true ⟨_, rfl⟩ trivial
      | auth message => exact iff_of_false nofun id
      | other message => exact iff_of_false nofun id

/-- One call of `get`: the clock when it begins and when it returns, and how `get_balance` ends
where it is called. -/
structure BankrollCall where
  asked : ℚ
  fetched : Except ClientError DecimalText
  answered : ℚ

/-- The provider between two calls, beside the last balance that was fetched and its time. -/
structure BankrollRun where
  bank : Bankroll
  now : ℚ
  good : Option (ℚ × ℚ)

namespace BankrollRun

def start (ttl fallback now : ℚ) : BankrollRun := ⟨⟨ttl, fallback, none, 0⟩, now, none⟩

def getBalance (s : BankrollRun) (call : BankrollCall) : Bankroll × Except ClientError ℚ :=
  s.bank.get s.bank call.asked call.fetched call.answered

def goodAfter (s : BankrollRun) (call : BankrollCall) : Option (ℚ × ℚ) :=
  match s.bank.fresh call.asked, call.fetched with
  | none, .ok balance =>
    match priceStrToDecimal balance with
    | some dollars => some (dollars, call.answered)
    | none => s.good
  | _, _ => s.good

/-- The call returns the last fetched balance, the fallback when there is none, and asks for the
balance only when the last one is older than the time to live. -/
structure Serves (s : BankrollRun) (call : BankrollCall) : Prop where
  returns : (s.getBalance call).2 =
    .ok (((s.goodAfter call).map Prod.fst).getD s.bank.fallback)
  quiet : s.bank.fresh call.asked = none → ∀ dollars fetchedAt, s.good = some (dollars, fetchedAt) →
    s.bank.ttl < call.asked - fetchedAt

/-- The condition: a balance call that is made ends with a decimal or a `KalshiAPIError`. -/
def Answers (s : BankrollRun) (call : BankrollCall) : Prop :=
  s.bank.fresh call.asked ≠ none ∨ BalanceKnown call.fetched

structure Caches (s : BankrollRun) : Prop where
  held : ∀ dollars fetchedAt, s.good = some (dollars, fetchedAt) →
    s.bank.cached = some dollars ∧ s.bank.lastFetch = fetchedAt
  unheld : s.good = none → ∀ dollars ∈ s.bank.cached, dollars = s.bank.fallback

end BankrollRun

def bankrollStep (s : BankrollRun) (call : BankrollCall) : Option BankrollRun :=
  if s.now ≤ call.asked ∧ call.asked ≤ call.answered then
    some ⟨(s.getBalance call).1, call.answered, s.goodAfter call⟩
  else none

namespace BankrollRun
variable {s s' : BankrollRun} {call : BankrollCall}

theorem bankrollStep_some (h : bankrollStep s call = some s') :
    s' = ⟨(s.getBalance call).1, call.answered, s.goodAfter call⟩ := by
  unfold bankrollStep at h
  split_ifs at h
  exact (Option.some.inj h).symm

theorem Caches.cached_getD (hI : s.Caches) :
    s.bank.cached.getD s.bank.fallback = (s.good.map Prod.fst).getD s.bank.fallback := by
  cases hgood : s.good with
  | some g => rw [(hI.held g.1 g.2 hgood).1]; rfl
  | none =>
    cases hcached : s.bank.cached with
    | none => rfl
    | some dollars => exact hI.unheld hgood dollars hcached

theorem getBalance_cases (s : BankrollRun) (call : BankrollCall) :
    (∃ dollars, s.bank.fresh call.asked = some dollars ∧ s.bank.cached = some dollars ∧
        s.getBalance call = (s.bank, .ok dollars) ∧ s.goodAfter call = s.good) ∨
      s.bank.fresh call.asked = none ∧
        ((BalanceKnown call.fetched ∧ ∃ dollars,
            s.getBalance call =
              ({ s.bank with cached := some dollars, lastFetch := call.answered }, .ok dollars) ∧
            s.goodAfter call = some (dollars, call.answered)) ∨
          (BalanceKnown call.fetched ∧
            s.getBalance call =
              ({ s.bank with cached := some (s.bank.cached.getD s.bank.fallback) },
                .ok (s.bank.cached.getD s.bank.fallback)) ∧
            s.goodAfter call = s.good) ∨
          (¬ BalanceKnown call.fetched ∧ ∃ e, s.getBalance call = (s.bank, .error e) ∧
            s.goodAfter call = s.good)) := by
  unfold getBalance goodAfter Bankroll.get
  cases hfresh : s.bank.fresh call.asked with
  | some dollars => exact .inl ⟨dollars, rfl, Bankroll.cached_of_fresh hfresh, rfl, rfl⟩
  | none =>
    refine .inr ⟨rfl, ?_⟩
    unfold Bankroll.refresh BalanceKnown
    cases call.fetched with
    | ok balance =>
      dsimp only
      cases priceStrToDecimal balance with
      | some dollars => exact .inl ⟨Option.some_ne_none dollars, dollars, rfl, rfl⟩
      | none => exact .inr (.inr ⟨not_not_intro rfl, _, rfl, rfl⟩)
    | error e =>
      cases e with
      | api statusCode body => exact .inr (.inl ⟨trivial, rfl, rfl⟩)
      | auth message => exact .inr (.inr ⟨id, _, rfl, rfl⟩)
      | other message => exact .inr (.inr ⟨id, _, rfl, rfl⟩)

theorem Caches.step (hI : s.Caches) (h : bankrollStep s call = some s') : s'.Caches := by
  obtain rfl := bankrollStep_some h
  rcases getBalance_cases s call with ⟨dollars, _, _, hget, hgood⟩ | ⟨_, ⟨_, dollars, hget, hgood⟩ |
    ⟨_, hget, hgood⟩ | ⟨_, e, hget, hgood⟩⟩
  · rw [hget, hgood]
    exact ⟨hI.held, hI.unheld⟩
  · rw [hget, hgood]
    constructor
    · rintro _ _ ⟨⟩
      exact ⟨rfl, rfl⟩
    · exact nofun
  · rw [hget, hgood]
    constructor
    · intro dollars fetchedAt hgood
      obtain ⟨hcached, hlast⟩ := hI.held dollars fetchedAt hgood
      exact ⟨congrArg some (by rw [hcached]; rfl), hlast⟩
    · rintro hnone _ ⟨⟩
      rw [hI.cached_getD, hnone]
      rfl
  · rw [hget, hgood]
    exact ⟨hI.held, hI.unheld⟩

theorem Caches.serves_iff (hI : s.Caches) : s.Serves call ↔ s.Answers call := by
  have hquiet : s.bank.fresh call.asked = none → ∀ dollars fetchedAt,
      s.good = some (dollars, fetchedAt) → s.bank.ttl < call.asked - fetchedAt := by
    intro hfresh dollars fetchedAt hgood
    obtain ⟨hcached, rfl⟩ := hI.held dollars fetchedAt hgood
    exact Bankroll.ttl_lt_of_not_fresh hcached hfresh
  rcases getBalance_cases s call with ⟨dollars, hfresh, hcached, hget, hgood⟩ |
    ⟨hfresh, ⟨hknown, dollars, hget, hgood⟩ | ⟨hknown, hget, hgood⟩ | ⟨hunknown, e, hget, hgood⟩⟩
  · have hlast := hI.cached_getD
    rw [hcached, Option.getD_some] at hlast
    refine iff_of_true ⟨?_, hquiet⟩ (.inl ?_)
    · rw [hget, hgood, ← hlast]
    · rw [hfresh]
      exact Option.some_ne_none dollars
  · refine iff_of_true ⟨?_, hquiet⟩ (.inr hknown)
    rw [hget, hgood]
    rfl
  · refine iff_of_true ⟨?_, hquiet⟩ (.inr hknown)
    rw [hget, hgood, hI.cached_getD]
  · refine iff_of_false (fun h => ?_) (fun h => h.elim (fun hne => hne hfresh) hunknown)
    have hreturns := h.returns
    rw [hget] at hreturns
    cases hreturns

end BankrollRun

/-- Over a run of calls, `get` returns the last fetched balance or the fallback, and asks for none
within the time to live, exactly when each balance call that is made ends with a decimal or with a
`KalshiAPIError`. -/
theorem bankroll_serves_iff (ttl fallback now : ℚ) (calls : List BankrollCall) :
    AllSteps bankrollStep BankrollRun.Serves (.start ttl fallback now) calls ↔
      AllSteps bankrollStep BankrollRun.Answers (.start ttl fallback now) calls :=
  allSteps_congr (I := BankrollRun.Caches) (fun _ _ _ hI h => hI.step h)
    (fun _ _ _ hI _ => hI.serves_iff) ⟨nofun, nofun⟩

def refusedKey : List BankrollCall :=
  [⟨0, .ok (.decimal 500), 1⟩, ⟨20, .error (.auth "401: unauthorized"), 21⟩]

/-- The second call raises, with the balance of the first in the cache. -/
theorem not_bankroll_serves_refusedKey :
    ¬ AllSteps bankrollStep BankrollRun.Serves (.start 10 0 0) refusedKey := by
  intro h
  have hsecond := ((h _ rfl).2 _ rfl).1
  have hok := congrArg Except.isOk hsecond.returns
  exact absurd hok (by decide +kernel)

end KalshiAgent
