import Mathlib.Algebra.Order.Field.Basic
import Mathlib.Data.List.Count
import Mathlib.Tactic.Linarith
import Mathlib.Tactic.Ring

/-! Metered grants. A budget that grows at a rate up to a capacity, and pays one for each grant,
bounds the grants of every closed interval by the capacity and the growth over the interval. -/

namespace Metering
variable {α : Type*} [Field α] [LinearOrder α] [IsStrictOrderedRing α]

def within (s e : α) (grants : List α) : ℕ := grants.countP (fun g => s ≤ g ∧ g ≤ e)

/-- `left` of the budget at the time `now`, after these grants. -/
structure Metered (rate cap left now : α) (grants : List α) : Prop where
  le_now : ∀ g ∈ grants, g ≤ now
  since : ∀ s ≤ now, (grants.countP (fun g => s ≤ g) : α) + left ≤ cap + rate * (now - s)
  bounded : ∀ s e, s ≤ e → (within s e grants : α) ≤ cap + rate * (e - s)

variable {rate cap left left' now g : α} {grants : List α}

theorem Metered.start (hrate : 0 ≤ rate) (hcap : 0 ≤ cap) (hleft : left ≤ cap) :
    Metered rate cap left now [] where
  le_now _ h := absurd h List.not_mem_nil
  since s hs := by
    have hgrown : 0 ≤ rate * (now - s) := mul_nonneg hrate (sub_nonneg.mpr hs)
    rw [List.countP_nil, Nat.cast_zero]
    linarith
  bounded s e hse := by
    have hgrown : 0 ≤ rate * (e - s) := mul_nonneg hrate (sub_nonneg.mpr hse)
    rw [within, List.countP_nil, Nat.cast_zero]
    linarith

omit [Field α] [IsStrictOrderedRing α] in
theorem within_eq_since {s e : α} (h : ∀ g ∈ grants, g ≤ e) :
    within s e grants = grants.countP (fun g => s ≤ g) := by
  apply List.countP_congr
  intro g hg
  simp [h g hg]

theorem Metered.grant (h : Metered rate cap left now grants) (hrate : 0 ≤ rate) (hnow : now ≤ g)
    (hleft : 0 ≤ left') (hcap : left' + 1 ≤ cap) (hpaid : left' + 1 ≤ left + rate * (g - now)) :
    Metered rate cap left' g (grants ++ [g]) := by
  have hle : ∀ x ∈ grants ++ [g], x ≤ g := by
    intro x hx
    rcases List.mem_append.mp hx with hx | hx
    · exact (h.le_now x hx).trans hnow
    · exact (List.mem_singleton.mp hx).le
  have hsince : ∀ s ≤ g,
      ((grants ++ [g]).countP (fun x => s ≤ x) : α) + left' ≤ cap + rate * (g - s) := by
    intro s hs
    have hlast : [g].countP (fun x => s ≤ x) = 1 := by simp [hs]
    rw [List.countP_append, hlast, Nat.cast_add, Nat.cast_one]
    rcases le_or_gt s now with hold | hnew
    · have hbefore := h.since s hold
      have hgrown : rate * (now - s) + rate * (g - now) = rate * (g - s) := by ring
      linarith
    · -- the interval begins after the last grant, and holds the new one alone
      have hnone : grants.countP (fun x => s ≤ x) = 0 := by
        rw [List.countP_eq_zero]
        intro x hx
        simpa using (h.le_now x hx).trans_lt hnew
      have hgrown : 0 ≤ rate * (g - s) := mul_nonneg hrate (sub_nonneg.mpr hs)
      rw [hnone, Nat.cast_zero]
      linarith
  refine ⟨hle, hsince, fun s e hse => ?_⟩
  have hinterval : 0 ≤ rate * (e - s) := mul_nonneg hrate (sub_nonneg.mpr hse)
  rcases lt_or_ge e g with hbefore | hafter
  · have hout : within s e [g] = 0 := by simp [within, hbefore]
    have hsame : within s e (grants ++ [g]) = within s e grants := by
      rw [within, List.countP_append]
      exact congrArg (within s e grants + ·) hout
    rw [hsame]
    exact h.bounded s e hse
  · rw [within_eq_since fun x hx => (hle x hx).trans hafter]
    rcases le_or_gt s g with hs | hs
    · have hgrown : rate * (g - s) ≤ rate * (e - s) :=
        mul_le_mul_of_nonneg_left (sub_le_sub_right hafter s) hrate
      linarith [hsince s hs]
    · have hnone : (grants ++ [g]).countP (fun x => s ≤ x) = 0 := by
        rw [List.countP_eq_zero]
        intro x hx
        simpa using (hle x hx).trans_lt hs
      rw [hnone, Nat.cast_zero]
      linarith

end Metering
