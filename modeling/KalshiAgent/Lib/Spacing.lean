import KalshiAgent.Lib.Metering

/-! Passes through a gate that one holds at a time and that stays shut for a gap after each of them.
What is done in the passes is bounded over every closed interval, however long a pass takes. -/

namespace Metering
variable {α : Type*} [Field α] [LinearOrder α] [IsStrictOrderedRing α]

structure Pass (α : Type*) where
  start : α
  stop : α
  marks : List α

structure Pass.Fits (most : ℕ) (p : Pass α) : Prop where
  length_le : p.marks.length ≤ most
  start_le : ∀ x ∈ p.marks, p.start ≤ x
  le_stop : ∀ x ∈ p.marks, x ≤ p.stop

def Spaced (gap : α) (passes : List (Pass α)) : Prop :=
  passes.Pairwise (fun p q => p.stop + gap ≤ q.start)

variable {gap s e : α} {passes : List (Pass α)} {p q : Pass α} {most : ℕ}

section Fits
variable {t : α}
omit [Field α] [IsStrictOrderedRing α]

theorem Pass.fits_single (hmost : 1 ≤ most) (t : α) : Pass.Fits most ⟨t, t, [t]⟩ := by
  have hmark : ∀ x ∈ [t], x = t := fun x hx => List.mem_singleton.mp hx
  exact ⟨hmost, fun x hx => (hmark x hx).ge, fun x hx => (hmark x hx).le⟩

theorem Pass.Fits.later (h : p.Fits most) (hlate : p.stop ≤ t) :
    Pass.Fits most { p with stop := t } :=
  ⟨h.length_le, h.start_le, fun x hx => (h.le_stop x hx).trans hlate⟩

theorem Pass.Fits.concat (h : p.Fits most) (hroom : p.marks.length < most) (hstart : p.start ≤ t)
    (hlate : p.stop ≤ t) : Pass.Fits most { p with stop := t, marks := p.marks ++ [t] } := by
  constructor
  · rw [List.length_append]
    exact hroom
  · intro x hx
    rcases List.mem_append.mp hx with hx | hx
    · exact h.start_le x hx
    · exact hstart.trans (List.mem_singleton.mp hx).ge
  · intro x hx
    rcases List.mem_append.mp hx with hx | hx
    · exact (h.le_stop x hx).trans hlate
    · exact (List.mem_singleton.mp hx).le

end Fits

omit [IsStrictOrderedRing α] in
theorem Spaced.concat (h : Spaced gap passes) (hlast : ∀ p ∈ passes, p.stop + gap ≤ q.start) :
    Spaced gap (passes ++ [q]) := by
  apply List.pairwise_append.mpr
  refine ⟨h, List.pairwise_singleton _ q, fun p hp x hx => ?_⟩
  rw [List.mem_singleton.mp hx]
  exact hlast p hp

omit [Field α] [IsStrictOrderedRing α] in
theorem within_flatMap_of_late {s' : α} (hs : s ≤ s') (hlate : ∀ q ∈ passes, s' ≤ q.start)
    (hfits : ∀ q ∈ passes, q.Fits most) :
    within s e (passes.flatMap Pass.marks) = within s' e (passes.flatMap Pass.marks) := by
  apply List.countP_congr
  intro x hx
  obtain ⟨q, hq, hxq⟩ := List.mem_flatMap.mp hx
  have hx' : s' ≤ x := (hlate q hq).trans ((hfits q hq).start_le x hxq)
  simp [hx', hs.trans hx']

/-- The first pass with something in the interval takes up a gap of it. -/
theorem Spaced.gap_mul_within_le (hgap : 0 ≤ gap) (h : Spaced gap passes)
    (hfits : ∀ p ∈ passes, p.Fits most) (hroom : s ≤ e + gap) :
    gap * within s e (passes.flatMap Pass.marks) ≤ most * (e + gap - s) := by
  induction passes generalizing s with
  | nil =>
    have hmost : (0 : α) ≤ most := Nat.cast_nonneg most
    simpa [within] using mul_nonneg hmost (sub_nonneg.mpr hroom)
  | cons p passes ih =>
    obtain ⟨hp, hpasses⟩ := List.pairwise_cons.mp h
    have hlater : ∀ q ∈ passes, q.Fits most := fun q hq => hfits q (List.mem_cons_of_mem p hq)
    have hcount : within s e ((p :: passes).flatMap Pass.marks) =
        within s e p.marks + within s e (passes.flatMap Pass.marks) := List.countP_append
    rw [hcount]
    rcases Nat.eq_zero_or_pos (within s e p.marks) with hnone | hsome
    · rw [hnone, Nat.zero_add]
      exact ih hpasses hlater hroom
    · obtain ⟨x, hx, hin⟩ := List.countP_pos_iff.mp hsome
      obtain ⟨hsx, hxe⟩ : s ≤ x ∧ x ≤ e := of_decide_eq_true hin
      have hfirst := hfits p List.mem_cons_self
      have hstop : s ≤ p.stop := hsx.trans (hfirst.le_stop x hx)
      have hlate : ∀ q ∈ passes, s + gap ≤ q.start :=
        fun q hq => (add_le_add_left hstop gap).trans (hp q hq)
      have hrest := ih hpasses hlater (add_le_add_left (hsx.trans hxe) gap)
      rw [← within_flatMap_of_late (le_add_of_nonneg_right hgap) hlate hlater] at hrest
      have hmarks : (within s e p.marks : α) ≤ most :=
        Nat.cast_le.mpr (List.countP_le_length.trans hfirst.length_le)
      have hpaid : gap * (within s e p.marks : α) ≤ gap * most := mul_le_mul_of_nonneg_left hmarks hgap
      push_cast
      linarith

theorem Spaced.within_le (hgap : 0 < gap) (h : Spaced gap passes) (hfits : ∀ p ∈ passes, p.Fits most)
    (hse : s ≤ e) :
    (within s e (passes.flatMap Pass.marks) : α) ≤ most * (1 + (e - s) / gap) := by
  have hmul := h.gap_mul_within_le hgap.le hfits (hse.trans (le_add_of_nonneg_right hgap.le))
  have hbudget : most * (1 + (e - s) / gap) = most * (e + gap - s) / gap := by
    rw [mul_div_assoc]
    congr 1
    rw [add_sub_right_comm, add_div, div_self hgap.ne', add_comm]
  rw [hbudget, le_div_iff₀ hgap, mul_comm]
  exact hmul

theorem within_le_of_pairwise {times : List α} (hgap : 0 < gap)
    (h : times.Pairwise (fun a b => a + gap ≤ b)) (hse : s ≤ e) :
    (within s e times : α) ≤ 1 + (e - s) / gap := by
  let pass (t : α) : Pass α := ⟨t, t, [t]⟩
  have hspaced : Spaced gap (times.map pass) := List.pairwise_map.mpr h
  have hfits : ∀ p ∈ times.map pass, p.Fits 1 := by
    intro p hp
    obtain ⟨t, _, rfl⟩ := List.mem_map.mp hp
    exact Pass.fits_single le_rfl t
  have hmarks : (times.map pass).flatMap Pass.marks = times := by
    rw [List.flatMap_map]
    exact List.flatMap_singleton' times
  have hbound := hspaced.within_le hgap hfits hse
  rwa [hmarks, Nat.cast_one, one_mul] at hbound

end Metering
