import Mathlib.Analysis.SpecialFunctions.Log.Basic

/-! The Kelly criterion for contracts that pay one when an event occurs. A better with the wealth `b`
who buys `x` of them at the price `c` has `b + x * (1 - c)` when it does, and `b - x * c` when not. -/

noncomputable section

namespace Kelly
open Real

/-- The expected logarithm of the factor by which the wealth grows, under the probability `p`. -/
def growth (p c b x : ℝ) : ℝ := p * log ((b + x * (1 - c)) / b) + (1 - p) * log ((b - x * c) / b)

/-- How many contracts maximise it. -/
def optimal (p c b : ℝ) : ℝ := (p - c) * b / (c * (1 - c))

def slope (p c b y : ℝ) : ℝ := p * (1 - c) / (b + y * (1 - c)) - (1 - p) * c / (b - y * c)

variable {p c b x y : ℝ}

theorem log_div_sub_log_div_le {u v : ℝ} (hb : 0 < b) (hu : 0 < u) (hv : 0 < v) :
    log (u / b) - log (v / b) ≤ (u - v) / v := by
  have hratio : u / b / (v / b) = u / v := div_div_div_cancel_right₀ hb.ne' u v
  rw [← log_div (div_pos hu hb).ne' (div_pos hv hb).ne', hratio]
  have hlog := log_le_sub_one_of_pos (div_pos hu hv)
  rwa [sub_div, div_self hv.ne']

/-- The growth lies below its tangents. -/
theorem growth_sub_growth_le (hb : 0 < b) (hp : 0 ≤ p) (hp1 : p ≤ 1) (hwin : 0 < b + x * (1 - c))
    (hwin' : 0 < b + y * (1 - c)) (hlose : p < 1 → 0 < b - x * c) (hlose' : p < 1 → 0 < b - y * c) :
    growth p c b x - growth p c b y ≤ slope p c b y * (x - y) := by
  have hwins : p * (log ((b + x * (1 - c)) / b) - log ((b + y * (1 - c)) / b)) ≤
      p * (1 - c) / (b + y * (1 - c)) * (x - y) := by
    apply (mul_le_mul_of_nonneg_left (log_div_sub_log_div_le hb hwin hwin') hp).trans_eq
    ring
  have hloses : (1 - p) * (log ((b - x * c) / b) - log ((b - y * c) / b)) ≤
      -((1 - p) * c / (b - y * c) * (x - y)) := by
    rcases hp1.eq_or_lt with rfl | hlt
    · simp
    · apply (mul_le_mul_of_nonneg_left
        (log_div_sub_log_div_le hb (hlose hlt) (hlose' hlt)) (sub_nonneg.mpr hp1)).trans_eq
      ring
  rw [growth, growth, slope, sub_mul]
  linarith

theorem mul_lt_of_le_optimal (hc : 0 < c) (hc1 : c < 1) (hb : 0 < b) (hp : p < 1)
    (hy : y ≤ optimal p c b) : y * c < b := by
  have hspread : 0 < c * (1 - c) := mul_pos hc (sub_pos.mpr hc1)
  have hroom : y * (c * (1 - c)) ≤ (p - c) * b := (le_div_iff₀ hspread).mp hy
  have hless : (p - c) * b < (1 - c) * b := mul_lt_mul_of_pos_right (sub_lt_sub_right hp c) hb
  have hscaled : y * c * (1 - c) < b * (1 - c) := by linarith
  exact lt_of_mul_lt_mul_right hscaled (sub_pos.mpr hc1).le

theorem slope_eq (hwin : 0 < b + y * (1 - c)) (hlose : 0 < b - y * c) :
    slope p c b y = ((p - c) * b - y * (c * (1 - c))) / ((b + y * (1 - c)) * (b - y * c)) := by
  rw [slope, div_sub_div _ _ hwin.ne' hlose.ne']
  congr 1
  ring

theorem slope_nonneg (hc : 0 < c) (hc1 : c < 1) (hb : 0 < b) (hp1 : p ≤ 1) (hy : 0 ≤ y)
    (hle : y ≤ optimal p c b) : 0 ≤ slope p c b y := by
  have hwin : 0 < b + y * (1 - c) := add_pos_of_pos_of_nonneg hb (mul_nonneg hy (sub_pos.mpr hc1).le)
  rcases hp1.eq_or_lt with rfl | hlt
  · rw [slope, sub_self, zero_mul, zero_div, sub_zero, one_mul]
    exact div_nonneg (sub_pos.mpr hc1).le hwin.le
  · have hlose : 0 < b - y * c := sub_pos.mpr (mul_lt_of_le_optimal hc hc1 hb hlt hle)
    have hroom : y * (c * (1 - c)) ≤ (p - c) * b := (le_div_iff₀ (mul_pos hc (sub_pos.mpr hc1))).mp hle
    rw [slope_eq hwin hlose]
    exact div_nonneg (sub_nonneg.mpr hroom) (mul_pos hwin hlose).le

theorem slope_optimal (hc : 0 < c) (hc1 : c < 1) (hb : 0 < b) (hcp : c ≤ p) (hp : p < 1) :
    slope p c b (optimal p c b) = 0 := by
  have hspread : 0 < c * (1 - c) := mul_pos hc (sub_pos.mpr hc1)
  have hoptimal : 0 ≤ optimal p c b :=
    div_nonneg (mul_nonneg (sub_nonneg.mpr hcp) hb.le) hspread.le
  have hwin : 0 < b + optimal p c b * (1 - c) :=
    add_pos_of_pos_of_nonneg hb (mul_nonneg hoptimal (sub_pos.mpr hc1).le)
  have hlose : 0 < b - optimal p c b * c := sub_pos.mpr (mul_lt_of_le_optimal hc hc1 hb hp le_rfl)
  have hroom : optimal p c b * (c * (1 - c)) = (p - c) * b := div_mul_cancel₀ _ hspread.ne'
  rw [slope_eq hwin hlose, hroom, sub_self, zero_div]

theorem growth_le_growth (hc : 0 < c) (hc1 : c < 1) (hb : 0 < b) (hp : 0 ≤ p) (hp1 : p ≤ 1)
    (hx : 0 ≤ x) (hxy : x ≤ y) (hy : y ≤ optimal p c b) : growth p c b x ≤ growth p c b y := by
  have hwins : ∀ z, 0 ≤ z → 0 < b + z * (1 - c) :=
    fun z hz => add_pos_of_pos_of_nonneg hb (mul_nonneg hz (sub_pos.mpr hc1).le)
  have hloses : ∀ z ≤ y, p < 1 → 0 < b - z * c :=
    fun z hz hlt => sub_pos.mpr (mul_lt_of_le_optimal hc hc1 hb hlt (hz.trans hy))
  have hslope : 0 ≤ slope p c b y := slope_nonneg hc hc1 hb hp1 (hx.trans hxy) hy
  have htangent := growth_sub_growth_le hb hp hp1 (hwins x hx) (hwins y (hx.trans hxy))
    (hloses x hxy) (hloses y le_rfl)
  have hbefore : slope p c b y * (x - y) ≤ 0 :=
    mul_nonpos_of_nonneg_of_nonpos hslope (sub_nonpos.mpr hxy)
  linarith

/-- No other stake that can be paid for does better. -/
theorem growth_le_growth_optimal (hc : 0 < c) (hc1 : c < 1) (hb : 0 < b) (hcp : c ≤ p) (hp1 : p ≤ 1)
    (hx : 0 ≤ x) (hpaid : x * c < b) : growth p c b x ≤ growth p c b (optimal p c b) := by
  have hspread : 0 < c * (1 - c) := mul_pos hc (sub_pos.mpr hc1)
  have hp : 0 ≤ p := hc.le.trans hcp
  rcases le_total x (optimal p c b) with hle | hge
  · exact growth_le_growth hc hc1 hb hp hp1 hx hle le_rfl
  rcases hp1.eq_or_lt with rfl | hlt
  · -- a sure thing is worth all that can be paid for
    have hall : optimal 1 c b * c = b := by
      rw [optimal, mul_comm c, mul_div_mul_left _ _ (sub_pos.mpr hc1).ne', div_mul_cancel₀ _ hc.ne']
    have hmore : optimal 1 c b * c ≤ x * c := mul_le_mul_of_nonneg_right hge hc.le
    exact absurd (hall ▸ hmore) (not_le.mpr hpaid)
  · have hwins : ∀ z, 0 ≤ z → 0 < b + z * (1 - c) :=
      fun z hz => add_pos_of_pos_of_nonneg hb (mul_nonneg hz (sub_pos.mpr hc1).le)
    have hoptimal : 0 ≤ optimal p c b :=
      div_nonneg (mul_nonneg (sub_nonneg.mpr hcp) hb.le) hspread.le
    have htangent := growth_sub_growth_le hb hp hp1 (hwins x hx) (hwins _ hoptimal)
      (fun _ => sub_pos.mpr hpaid)
      (fun _ => sub_pos.mpr (mul_lt_of_le_optimal hc hc1 hb hlt le_rfl))
    rw [slope_optimal hc hc1 hb hcp hlt, zero_mul] at htangent
    exact sub_nonpos.mp htangent

theorem growth_zero (hb : 0 < b) : growth p c b 0 = 0 := by
  rw [growth, zero_mul, zero_mul, add_zero, sub_zero, div_self hb.ne', log_one]
  ring

end Kelly

end
