import KalshiAgent.Lib.Rounding
import Mathlib.Data.Int.Log
import Mathlib.Algebra.Order.Field.Power
import Mathlib.Tactic.Positivity
import Mathlib.Tactic.Ring

/-! Decimal numbers with a context: every result is rounded half to even to the precision of the
context, an operation on a signaling NaN and one without a result are trapped, and so is a result
past the largest exponent. A number is its value: signs of zeros and exponents are left out. -/

inductive Decimal
  | finite (x : ℚ)
  | infinite (negative : Bool)
  | nan
  | snan
  deriving DecidableEq

namespace Decimal
open Rounding

inductive Trap
  | invalidOperation
  | overflow
  deriving DecidableEq

structure Context where
  prec : ℕ
  -- the exponent of the smallest subnormal number
  eTiny : ℤ
  eMax : ℤ
  prec_pos : 1 ≤ prec
  eTiny_nonpos : eTiny ≤ 0
  eMax_nonneg : 0 ≤ eMax

def roundTo (e : ℤ) (x : ℚ) : ℚ := roundHalfEven (x / 10 ^ e) * 10 ^ e

namespace Context
variable (ctx : Context)

def quantum (x : ℚ) : ℤ := max (Int.log 10 |x| - (ctx.prec - 1)) ctx.eTiny

def round (x : ℚ) : ℚ := roundTo (ctx.quantum x) x

/-- The result of an operation whose exact result is `x`. -/
def finish (x : ℚ) : Except Trap Decimal :=
  if ctx.eMax < Int.log 10 |ctx.round x| then .error .overflow else .ok (.finite (ctx.round x))

def add : Decimal → Decimal → Except Trap Decimal
  | .snan, _ => .error .invalidOperation
  | _, .snan => .error .invalidOperation
  | .nan, _ => .ok .nan
  | _, .nan => .ok .nan
  | .infinite s, .infinite t => if s = t then .ok (.infinite s) else .error .invalidOperation
  | .infinite s, .finite _ => .ok (.infinite s)
  | .finite _, .infinite t => .ok (.infinite t)
  | .finite x, .finite y => ctx.finish (x + y)

def sub : Decimal → Decimal → Except Trap Decimal
  | .snan, _ => .error .invalidOperation
  | _, .snan => .error .invalidOperation
  | .nan, _ => .ok .nan
  | _, .nan => .ok .nan
  | .infinite s, .infinite t => if s = t then .error .invalidOperation else .ok (.infinite s)
  | .infinite s, .finite _ => .ok (.infinite s)
  | .finite _, .infinite t => .ok (.infinite (!t))
  | .finite x, .finite y => ctx.finish (x - y)

def half : Decimal → Except Trap Decimal
  | .snan => .error .invalidOperation
  | .nan => .ok .nan
  | .infinite s => .ok (.infinite s)
  | .finite x => ctx.finish (x / 2)

/-- The number with the exponent `e`, when its digits fit the precision. -/
def quantize (e : ℤ) : Decimal → Except Trap Decimal
  | .snan => .error .invalidOperation
  | .nan => .ok .nan
  | .infinite _ => .error .invalidOperation
  | .finite x =>
    if 10 ^ ctx.prec ≤ |roundHalfEven (x / 10 ^ e)| then .error .invalidOperation
    else .ok (.finite (roundTo e x))

end Context

def isNan : Decimal → Bool
  | .nan => true
  | .snan => true
  | _ => false

def le : Decimal → Decimal → Bool
  | .finite x, .finite y => x ≤ y
  | .finite _, .infinite t => !t
  | .infinite s, .finite _ => s
  | .infinite s, .infinite t => s || !t
  | _, _ => false

def compareLe (d e : Decimal) : Except Trap Bool :=
  if d.isNan || e.isNan then .error .invalidOperation else .ok (d.le e)

section RoundTo
variable {e : ℤ} {x b : ℚ}

theorem ten_pow_pos (e : ℤ) : (0 : ℚ) < 10 ^ e := zpow_pos (by norm_num) e

theorem pow_multiple {e k : ℤ} (h : e ≤ k) : ∃ n : ℤ, (10 : ℚ) ^ k = n * 10 ^ e := by
  obtain ⟨j, hj⟩ := Int.le.dest h
  refine ⟨10 ^ j, ?_⟩
  rw [← hj, zpow_add₀ (by norm_num : (10 : ℚ) ≠ 0), zpow_natCast, mul_comm]
  push_cast
  rfl

theorem abs_roundTo_le (hb : ∃ n : ℤ, b = n * 10 ^ e) (h : |x| ≤ b) : |roundTo e x| ≤ b := by
  obtain ⟨n, rfl⟩ := hb
  have hpos := ten_pow_pos e
  rw [abs_le] at h
  have hhigh : roundHalfEven (x / 10 ^ e) ≤ n := roundHalfEven_le ((div_le_iff₀ hpos).mpr h.2)
  have hlow : -n ≤ roundHalfEven (x / 10 ^ e) := by
    apply le_roundHalfEven
    rw [le_div_iff₀ hpos, Int.cast_neg, neg_mul]
    exact h.1
  rw [roundTo, abs_mul, abs_of_pos hpos]
  apply mul_le_mul_of_nonneg_right _ hpos.le
  rw [← Int.cast_abs]
  exact_mod_cast abs_le.mpr ⟨hlow, hhigh⟩

theorem le_abs_roundTo (hb : ∃ n : ℤ, b = n * 10 ^ e) (h : b ≤ |x|) : b ≤ |roundTo e x| := by
  obtain ⟨n, rfl⟩ := hb
  have hpos := ten_pow_pos e
  rw [roundTo, abs_mul, abs_of_pos hpos]
  apply mul_le_mul_of_nonneg_right _ hpos.le
  rw [← Int.cast_abs]
  rcases le_abs.mp h with h | h
  · have hle : n ≤ roundHalfEven (x / 10 ^ e) := le_roundHalfEven ((le_div_iff₀ hpos).mpr h)
    exact_mod_cast hle.trans (le_abs_self _)
  · have hle : roundHalfEven (x / 10 ^ e) ≤ -n := by
      apply roundHalfEven_le
      rw [div_le_iff₀ hpos, Int.cast_neg, neg_mul]
      linarith
    have habs : n ≤ |roundHalfEven (x / 10 ^ e)| := by
      have := neg_le_abs (roundHalfEven (x / 10 ^ e))
      linarith
    exact_mod_cast habs

end RoundTo

section Finish
variable {ctx : Context} {e k : ℤ} {x : ℚ}

@[simp] theorem roundTo_zero (e : ℤ) : roundTo e 0 = 0 := by
  have hzero : roundHalfEven (0 : ℚ) = 0 := by exact_mod_cast roundHalfEven_intCast (0 : ℤ)
  rw [roundTo, zero_div, hzero, Int.cast_zero, zero_mul]

theorem log_lt_of_abs_lt (hx : x ≠ 0) (h : |x| < 10 ^ k) : Int.log 10 |x| < k :=
  (Int.lt_zpow_iff_log_lt (by decide) (abs_pos.mpr hx)).mp (by exact_mod_cast h)

theorem le_log_of_le_abs (hx : x ≠ 0) (h : 10 ^ k ≤ |x|) : k ≤ Int.log 10 |x| :=
  (Int.zpow_le_iff_le_log (by decide) (abs_pos.mpr hx)).mp (by exact_mod_cast h)

theorem pow_log_le_abs (hx : x ≠ 0) : (10 : ℚ) ^ Int.log 10 |x| ≤ |x| := by
  exact_mod_cast Int.zpow_log_le_self (by decide : 1 < 10) (abs_pos.mpr hx)

theorem abs_round_le_pow (hk : ctx.eTiny ≤ k) (h : |x| ≤ 10 ^ k) : |ctx.round x| ≤ 10 ^ k := by
  rcases eq_or_ne x 0 with rfl | hx
  · rw [Context.round, roundTo_zero, abs_zero]
    exact (ten_pow_pos k).le
  · have hlog : Int.log 10 |x| ≤ k := by
      have hnext : (10 : ℚ) ^ k < 10 ^ (k + 1) := zpow_lt_zpow_right₀ (by norm_num) (by omega)
      have := log_lt_of_abs_lt hx (h.trans_lt hnext)
      omega
    have hprec := ctx.prec_pos
    exact abs_roundTo_le (pow_multiple (max_le (by omega) hk)) h

theorem finish_of_le (hk : ctx.eTiny ≤ k) (hmax : k ≤ ctx.eMax) (h : |x| ≤ 10 ^ k) :
    ctx.finish x = .ok (.finite (ctx.round x)) := by
  have hround := abs_round_le_pow hk h
  refine if_neg (not_lt.mpr ?_)
  rcases eq_or_ne (ctx.round x) 0 with hzero | hne
  · rw [hzero, abs_zero, Int.log_zero_right]
    exact ctx.eMax_nonneg
  · have hnext : (10 : ℚ) ^ k < 10 ^ (k + 1) := zpow_lt_zpow_right₀ (by norm_num) (by omega)
    have := log_lt_of_abs_lt hne (hround.trans_lt hnext)
    omega

end Finish

section Quantize
variable {ctx : Context} {e : ℤ} {x : ℚ}

theorem pow_prec (ctx : Context) (e : ℤ) : (10 : ℚ) ^ (ctx.prec + e) = 10 ^ ctx.prec * 10 ^ e := by
  rw [zpow_add₀ (by norm_num : (10 : ℚ) ≠ 0), zpow_natCast]

theorem pow_pred_le (ctx : Context) (e : ℤ) :
    (10 : ℚ) ^ (ctx.prec + e - 1) ≤ 10 ^ (ctx.prec + e) - 10 ^ e := by
  have hten : (10 : ℚ) ^ (ctx.prec + e) = 10 ^ (ctx.prec + e - 1) * 10 := by
    rw [← zpow_add_one₀ (by norm_num : (10 : ℚ) ≠ 0), sub_add_cancel]
  have hprec := ctx.prec_pos
  have hle : (10 : ℚ) ^ e ≤ 10 ^ (ctx.prec + e - 1) :=
    zpow_le_zpow_right₀ (by norm_num) (by omega)
  linarith [ten_pow_pos (ctx.prec + e - 1)]

theorem quantum_eq (he : ctx.eTiny ≤ e) (hlow : (10 : ℚ) ^ (ctx.prec + e) - 10 ^ e < |x|)
    (hhigh : |x| < 10 ^ (ctx.prec + e)) : ctx.quantum x = e := by
  have hlow' : (10 : ℚ) ^ (ctx.prec + e - 1) ≤ |x| := (pow_pred_le ctx e).trans hlow.le
  have hx : x ≠ 0 := abs_pos.mp ((ten_pow_pos _).trans_le hlow')
  have hlog := log_lt_of_abs_lt hx hhigh
  have hlog' := le_log_of_le_abs hx hlow'
  rw [Context.quantum, max_eq_left (by omega)]
  omega

theorem abs_round_le (he : ctx.eTiny ≤ e) (h : |x| < 10 ^ (ctx.prec + e) - 10 ^ e / 2) :
    |ctx.round x| ≤ 10 ^ (ctx.prec + e) - 10 ^ e := by
  have hpos := ten_pow_pos e
  rcases le_or_gt |x| (10 ^ (ctx.prec + e) - 10 ^ e) with hin | hgap
  · rcases eq_or_ne x 0 with rfl | hx
    · rw [Context.round, roundTo_zero, abs_zero]
      exact (abs_nonneg _).trans hin
    · have hlog : Int.log 10 |x| < ctx.prec + e := log_lt_of_abs_lt hx (by linarith)
      have hunit : ctx.quantum x ≤ e := max_le (by omega) he
      obtain ⟨n, hn⟩ := pow_multiple hunit
      refine abs_roundTo_le ⟨(10 ^ ctx.prec - 1) * n, ?_⟩ hin
      rw [pow_prec, hn]
      push_cast
      ring
  · have hx : |x / 10 ^ e| < 10 ^ ctx.prec - 1 / 2 := by
      rw [abs_div, abs_of_pos hpos, div_lt_iff₀ hpos]
      rw [pow_prec] at h
      linarith
    rw [Context.round, quantum_eq he hgap (by linarith), roundTo, abs_mul, abs_of_pos hpos, pow_prec]
    have hround : |roundHalfEven (x / 10 ^ e)| ≤ 10 ^ ctx.prec - 1 := by
      rw [abs_lt] at hx
      rw [abs_le]
      constructor
      · apply le_roundHalfEven_of_lt
        push_cast
        linarith [hx.1]
      · apply roundHalfEven_le_of_lt
        push_cast
        linarith [hx.2]
    have hround' : |(roundHalfEven (x / 10 ^ e) : ℚ)| ≤ 10 ^ ctx.prec - 1 := by
      rw [← Int.cast_abs]
      exact_mod_cast hround
    linarith [mul_le_mul_of_nonneg_right hround' hpos.le]

theorem le_abs_round (he : ctx.eTiny ≤ e) (h : 10 ^ (ctx.prec + e) - 10 ^ e / 2 ≤ |x|) :
    10 ^ (ctx.prec + e) ≤ |ctx.round x| := by
  have hpos := ten_pow_pos e
  have hprec := ctx.prec_pos
  rcases le_or_gt (10 ^ (ctx.prec + e)) |x| with hout | hgap
  · have hx : x ≠ 0 := abs_pos.mp ((ten_pow_pos _).trans_le hout)
    have hlog := le_log_of_le_abs hx hout
    have hunit : ctx.quantum x ≤ Int.log 10 |x| := max_le (by omega) (by omega)
    exact (zpow_le_zpow_right₀ (by norm_num) hlog).trans
      (le_abs_roundTo (pow_multiple hunit) (pow_log_le_abs hx))
  · have hx : 10 ^ ctx.prec - 1 / 2 ≤ |x / 10 ^ e| := by
      rw [abs_div, abs_of_pos hpos, le_div_iff₀ hpos]
      rw [pow_prec] at h
      linarith
    rw [Context.round, quantum_eq he (by linarith) hgap, roundTo, abs_mul, abs_of_pos hpos, pow_prec]
    apply mul_le_mul_of_nonneg_right _ hpos.le
    have heven : (10 ^ ctx.prec : ℤ) % 2 = 0 := by
      have htwo : (2 : ℤ) ∣ 10 ^ ctx.prec := dvd_pow (by norm_num) (by omega)
      omega
    have hround : 10 ^ ctx.prec ≤ |roundHalfEven (x / 10 ^ e)| := by
      rcases le_abs.mp hx with hx | hx
      · have hle : (10 ^ ctx.prec : ℤ) ≤ roundHalfEven (x / 10 ^ e) := by
          apply le_roundHalfEven_of_even heven
          push_cast
          exact hx
        exact hle.trans (le_abs_self _)
      · have hle : roundHalfEven (x / 10 ^ e) ≤ -(10 ^ ctx.prec : ℤ) := by
          apply roundHalfEven_le_of_even (by omega)
          push_cast
          linarith
        linarith [neg_le_abs (roundHalfEven (x / 10 ^ e))]
    rw [← Int.cast_abs]
    exact_mod_cast hround

/-- A result keeps the digits down to `e` exactly when it is below the middle of the last gap. -/
theorem quantize_finish_iff (he : ctx.eTiny ≤ e) (hmax : ctx.prec + e ≤ ctx.eMax) :
    (∃ d q, ctx.finish x = .ok d ∧ ctx.quantize e d = .ok q) ↔
      |x| < 10 ^ (ctx.prec + e) - 10 ^ e / 2 := by
  have hpos := ten_pow_pos e
  constructor
  · rintro ⟨d, q, hfinish, hquantize⟩
    by_contra hout
    have hround := le_abs_round he (not_lt.mp hout)
    rw [Context.finish] at hfinish
    split_ifs at hfinish
    cases hfinish
    have hdigits : 10 ^ ctx.prec ≤ |roundHalfEven (ctx.round x / 10 ^ e)| := by
      have hmult : ∃ n : ℤ, (10 : ℚ) ^ (ctx.prec + e) = n * 10 ^ e :=
        ⟨10 ^ ctx.prec, by rw [pow_prec]; push_cast; rfl⟩
      have hle := le_abs_roundTo hmult hround
      rw [roundTo, abs_mul, abs_of_pos hpos, pow_prec, mul_le_mul_iff_left₀ hpos,
        ← Int.cast_abs] at hle
      exact_mod_cast hle
    rw [Context.quantize, if_pos hdigits] at hquantize
    cases hquantize
  · intro hin
    have hround := abs_round_le he hin
    refine ⟨_, _, finish_of_le (k := ctx.prec + e) (by omega) hmax (by linarith), if_neg ?_⟩
    rw [not_le]
    have hmult : ∃ n : ℤ, (10 : ℚ) ^ (ctx.prec + e) - 10 ^ e = n * 10 ^ e :=
      ⟨10 ^ ctx.prec - 1, by rw [pow_prec]; push_cast; ring⟩
    have hle := abs_roundTo_le hmult hround
    rw [roundTo, abs_mul, abs_of_pos hpos, pow_prec] at hle
    have hlt : |(roundHalfEven (ctx.round x / 10 ^ e) : ℚ)| < 10 ^ ctx.prec := by
      apply lt_of_mul_lt_mul_right _ hpos.le
      linarith
    rw [← Int.cast_abs] at hlt
    exact_mod_cast hlt

end Quantize

section Sums
variable {ctx : Context} {e : ℤ}

def Context.eTop (ctx : Context) : ℤ := ctx.eMax + 1 - ctx.prec

theorem finish_ok_iff (he : ctx.eTiny ≤ ctx.eTop) {x : ℚ} :
    (∃ d, ctx.finish x = .ok d) ↔ |x| < 10 ^ (ctx.eMax + 1) - 10 ^ ctx.eTop / 2 := by
  have htop : (ctx.prec + ctx.eTop : ℤ) = ctx.eMax + 1 := by
    unfold Context.eTop
    omega
  have hpos := ten_pow_pos ctx.eTop
  constructor
  · rintro ⟨d, hfinish⟩
    by_contra hout
    have hround := le_abs_round he (htop.symm ▸ not_lt.mp hout)
    rw [htop] at hround
    have hne : ctx.round x ≠ 0 := abs_pos.mp ((ten_pow_pos _).trans_le hround)
    have hlog := le_log_of_le_abs hne hround
    rw [Context.finish, if_pos (by omega)] at hfinish
    cases hfinish
  · intro hin
    have hround := abs_round_le he (htop.symm ▸ hin)
    rw [htop] at hround
    refine ⟨_, if_neg (not_lt.mpr ?_)⟩
    rcases eq_or_ne (ctx.round x) 0 with hzero | hne
    · rw [hzero, abs_zero, Int.log_zero_right]
      exact ctx.eMax_nonneg
    · have hlog := log_lt_of_abs_lt (k := ctx.eMax + 1) hne (by linarith)
      omega

def Context.Adds (ctx : Context) : Decimal → Decimal → Prop
  | .snan, _ => False
  | _, .snan => False
  | .nan, _ => True
  | _, .nan => True
  | .infinite s, .infinite t => s = t
  | .infinite _, .finite _ => True
  | .finite _, .infinite _ => True
  | .finite x, .finite y => |x + y| < 10 ^ (ctx.eMax + 1) - 10 ^ ctx.eTop / 2

theorem add_ok_iff (he : ctx.eTiny ≤ ctx.eTop) {d e : Decimal} :
    (∃ r, ctx.add d e = .ok r) ↔ ctx.Adds d e := by
  cases d with
  | finite x => cases e <;> simp [Context.add, Context.Adds, finish_ok_iff he]
  | infinite s =>
    cases e with
    | infinite t => by_cases hst : s = t <;> simp [Context.add, Context.Adds, hst]
    | finite y => simp [Context.add, Context.Adds]
    | nan => simp [Context.add, Context.Adds]
    | snan => simp [Context.add, Context.Adds]
  | nan => cases e <;> simp [Context.add, Context.Adds]
  | snan => cases e <;> simp [Context.add, Context.Adds]

theorem half_add_ok (he : ctx.eTiny ≤ ctx.eTop) {d e r : Decimal} (h : ctx.add d e = .ok r) :
    ∃ m, ctx.half r = .ok m := by
  have hfinite : ∀ x, ctx.finish x = .ok r → ∃ m, ctx.half r = .ok m := by
    intro x hfinish
    have hround : |ctx.round x| ≤ 10 ^ (ctx.eMax + 1) := by
      have hin := (finish_ok_iff he).mp ⟨r, hfinish⟩
      have hpos := ten_pow_pos ctx.eTop
      have hprec := ctx.prec_pos
      exact abs_round_le_pow (by unfold Context.eTop at he; omega) (by linarith)
    rw [Context.finish] at hfinish
    split_ifs at hfinish
    cases hfinish
    refine (finish_ok_iff he).mpr ?_
    have hten : (10 : ℚ) ^ (ctx.eMax + 1) = 10 ^ ctx.eMax * 10 :=
      zpow_add_one₀ (by norm_num) ctx.eMax
    have htop : (10 : ℚ) ^ ctx.eTop ≤ 10 ^ ctx.eMax := by
      have hprec := ctx.prec_pos
      exact zpow_le_zpow_right₀ (by norm_num) (by unfold Context.eTop; omega)
    have hpos := ten_pow_pos ctx.eMax
    rw [abs_div, abs_of_pos (by norm_num : (0 : ℚ) < 2)]
    linarith
  cases d with
  | finite x =>
    cases e with
    | finite y => exact hfinite _ h
    | infinite t => cases h; exact ⟨_, rfl⟩
    | nan => cases h; exact ⟨_, rfl⟩
    | snan => cases h
  | infinite s =>
    cases e with
    | finite y => cases h; exact ⟨_, rfl⟩
    | infinite t =>
      rw [Context.add] at h
      split_ifs at h
      cases h
      exact ⟨_, rfl⟩
    | nan => cases h; exact ⟨_, rfl⟩
    | snan => cases h
  | nan =>
    cases e with
    | snan => cases h
    | _ => cases h; exact ⟨_, rfl⟩
  | snan => cases e <;> cases h

end Sums

section Differences
variable {ctx : Context} {e : ℤ}

def Context.Fits (ctx : Context) (e : ℤ) : Decimal → Decimal → Prop
  | .snan, _ => False
  | _, .snan => False
  | .nan, _ => True
  | _, .nan => True
  | .finite x, .finite y => |x - y| < 10 ^ (ctx.prec + e) - 10 ^ e / 2
  | _, _ => False

theorem quantize_sub_iff (he : ctx.eTiny ≤ e) (hmax : ctx.prec + e ≤ ctx.eMax) {d f : Decimal} :
    (∃ r q, ctx.sub d f = .ok r ∧ ctx.quantize e r = .ok q) ↔ ctx.Fits e d f := by
  cases d with
  | finite x =>
    cases f with
    | finite y => exact quantize_finish_iff he hmax
    | infinite t => simp [Context.sub, Context.Fits, Context.quantize]
    | nan => simp [Context.sub, Context.Fits, Context.quantize]
    | snan => simp [Context.sub, Context.Fits]
  | infinite s =>
    cases f with
    | infinite t =>
      by_cases hst : s = t <;> simp [Context.sub, Context.Fits, Context.quantize, hst]
    | finite y => simp [Context.sub, Context.Fits, Context.quantize]
    | nan => simp [Context.sub, Context.Fits, Context.quantize]
    | snan => simp [Context.sub, Context.Fits]
  | nan => cases f <;> simp [Context.sub, Context.Fits, Context.quantize]
  | snan => cases f <;> simp [Context.sub, Context.Fits]

theorem finish_isNan {x : ℚ} {r : Decimal} (h : ctx.finish x = .ok r) : r.isNan = false := by
  rw [Context.finish] at h
  split_ifs at h
  cases h
  rfl

theorem sub_isNan {d f r : Decimal} (h : ctx.sub d f = .ok r) :
    r.isNan = (d.isNan || f.isNan) := by
  cases d with
  | finite x =>
    cases f with
    | finite y => exact finish_isNan h
    | infinite t => cases h; rfl
    | nan => cases h; rfl
    | snan => cases h
  | infinite s =>
    cases f with
    | finite y => cases h; rfl
    | infinite t =>
      rw [Context.sub] at h
      split_ifs at h
      cases h
      rfl
    | nan => cases h; rfl
    | snan => cases h
  | nan =>
    cases f with
    | snan => cases h
    | _ => cases h; rfl
  | snan => cases f <;> cases h

end Differences

section Order
variable {d e f : Decimal}

theorem compareLe_eq (hd : d.isNan = false) (he : e.isNan = false) :
    d.compareLe e = .ok (d.le e) := by
  rw [compareLe, hd, he]
  rfl

theorem le_of_le_of_le (hde : d.le e = true) (hef : e.le f = true) : d.le f = true := by
  cases d with
  | finite x =>
    cases e with
    | finite y =>
      cases f with
      | finite z =>
        rw [le, decide_eq_true_iff] at hde hef ⊢
        exact hde.trans hef
      | infinite t => exact hef
      | nan => cases hef
      | snan => cases hef
    | infinite t =>
      cases t with
      | true => cases hde
      | false => cases f <;> simp_all [le]
    | nan => cases hde
    | snan => cases hde
  | infinite s =>
    cases s with
    | true => cases f <;> cases e <;> simp_all [le]
    | false => cases e <;> cases f <;> simp_all [le]
  | nan => cases hde
  | snan => cases hde

theorem total (hd : d.isNan = false) (he : e.isNan = false) : d.le e = true ∨ e.le d = true := by
  cases d with
  | finite x =>
    cases e with
    | finite y => simpa [le] using le_total x y
    | infinite t => cases t <;> simp [le]
    | nan => cases he
    | snan => cases he
  | infinite s =>
    cases e with
    | finite y => cases s <;> simp [le]
    | infinite t => cases s <;> cases t <;> simp [le]
    | nan => cases he
    | snan => cases he
  | nan => cases hd
  | snan => cases hd

end Order

end Decimal
