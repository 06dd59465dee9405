import Mathlib.Algebra.Order.Ring.Int
import Mathlib.Data.Int.ConditionallyCompleteOrder
import Mathlib.Data.Int.SuccPred
import Mathlib.Data.List.Flatten
import Mathlib.Order.SuccPred.IntervalSucc

/-! The half-open intervals between successive bounds tile what lies between the first and the last
one: the slices of a list are together the list. -/

namespace Tiling
variable {α β : Type*} [LinearOrder β] {bound : ℤ → β} {stamp : α → β} {xs : List α}

def between (stamp : α → β) (xs : List α) (lo hi : β) : List α :=
  xs.filter (fun x => lo ≤ stamp x ∧ stamp x < hi)

def slices (bound : ℤ → β) (stamp : α → β) (xs : List α) (first : ℤ) (n : ℕ) : List (List α) :=
  (List.range n).map (fun i : ℕ => between stamp xs (bound (first + i)) (bound (first + i + 1)))

theorem mem_between {lo hi : β} {x : α} :
    x ∈ between stamp xs lo hi ↔ x ∈ xs ∧ lo ≤ stamp x ∧ stamp x < hi := by
  unfold between
  rw [List.mem_filter, decide_eq_true_iff]

theorem between_eq_self {lo hi : β} (h : ∀ x ∈ xs, lo ≤ stamp x ∧ stamp x < hi) :
    between stamp xs lo hi = xs :=
  List.filter_eq_self.mpr (fun x hx => decide_eq_true (h x hx))

theorem between_append_perm {lo mid hi : β} (hlo : lo ≤ mid) (hhi : mid ≤ hi) :
    (between stamp xs lo mid ++ between stamp xs mid hi).Perm (between stamp xs lo hi) := by
  have hbefore : between stamp xs lo mid =
      (between stamp xs lo hi).filter (fun x => stamp x < mid) := by
    unfold between
    rw [List.filter_filter]
    apply List.filter_congr
    intro x _
    have hsame : lo ≤ stamp x ∧ stamp x < mid ↔ stamp x < mid ∧ lo ≤ stamp x ∧ stamp x < hi :=
      ⟨fun h => ⟨h.2, h.1, h.2.trans_le hhi⟩, fun h => ⟨h.2.1, h.1⟩⟩
    rw [decide_eq_decide.mpr hsame, Bool.decide_and]
  have hafter : between stamp xs mid hi =
      (between stamp xs lo hi).filter (fun x => !decide (stamp x < mid)) := by
    unfold between
    rw [List.filter_filter]
    apply List.filter_congr
    intro x _
    have hsame : mid ≤ stamp x ∧ stamp x < hi ↔ ¬ stamp x < mid ∧ lo ≤ stamp x ∧ stamp x < hi :=
      ⟨fun h => ⟨not_lt.mpr h.1, hlo.trans h.1, h.2⟩, fun h => ⟨not_lt.mp h.1, h.2.2⟩⟩
    rw [decide_eq_decide.mpr hsame, Bool.decide_and, decide_not]
  rw [hbefore, hafter]
  exact List.filter_append_perm _ _

theorem flatten_slices_perm (stamp : α → β) (xs : List α) (hbound : Monotone bound) (first : ℤ)
    (n : ℕ) :
    (slices bound stamp xs first n).flatten.Perm
      (between stamp xs (bound first) (bound (first + n))) := by
  induction n with
  | zero =>
    have hnone : between stamp xs (bound first) (bound (first + (0 : ℕ))) = [] := by
      apply List.filter_eq_nil_iff.mpr
      intro x _ hx
      rw [Nat.cast_zero, add_zero, decide_eq_true_iff] at hx
      exact absurd hx.2 (not_lt.mpr hx.1)
    rw [hnone]
    rfl
  | succ n ih =>
    unfold slices at ih ⊢
    rw [List.range_succ, List.map_append, List.flatten_append, List.map_singleton,
      List.flatten_singleton, Nat.cast_succ, ← add_assoc]
    have hfirst : bound first ≤ bound (first + n) := hbound (by omega)
    have hlast : bound (first + n) ≤ bound (first + n + 1) := hbound (by omega)
    exact (ih.append_right _).trans (between_append_perm hfirst hlast)

theorem between_unique (hbound : Monotone bound) {d e : ℤ} {x : α}
    (hd : x ∈ between stamp xs (bound d) (bound (d + 1)))
    (he : x ∈ between stamp xs (bound e) (bound (e + 1))) : d = e := by
  by_contra hne
  have hdisjoint := hbound.pairwise_disjoint_on_Ico_succ hne
  exact Set.disjoint_left.mp hdisjoint (mem_between.mp hd).2 (mem_between.mp he).2

theorem exists_slice (hbound : Monotone bound) {first : ℤ} {n : ℕ} {x : α}
    (hx : x ∈ between stamp xs (bound first) (bound (first + n))) :
    ∃ d, (first ≤ d ∧ d < first + n) ∧ x ∈ between stamp xs (bound d) (bound (d + 1)) := by
  have hmem := (flatten_slices_perm stamp xs hbound first n).mem_iff.mpr hx
  obtain ⟨slice, hslice, hx⟩ := List.mem_flatten.mp hmem
  obtain ⟨i, hi, rfl⟩ := List.mem_map.mp hslice
  have hi := List.mem_range.mp hi
  exact ⟨first + i, ⟨by omega, by omega⟩, hx⟩

end Tiling
