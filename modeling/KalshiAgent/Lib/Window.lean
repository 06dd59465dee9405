import Mathlib.Data.List.Count
import Mathlib.Algebra.Order.Group.Defs

/-! Sliding windows over a growing record of times: a bounded buffer keeps the last of them, and
a limit that is checked before each record holds in every window. -/

namespace Window
variable {α : Type*}

def keepLast (n : ℕ) (l : List α) : List α := l.drop (l.length - n)

theorem keepLast_of_length_le {n : ℕ} {l : List α} (h : l.length ≤ n) : keepLast n l = l := by
  rw [keepLast, Nat.sub_eq_zero_of_le h, List.drop_zero]

theorem length_keepLast (n : ℕ) (l : List α) : (keepLast n l).length = min n l.length := by
  rw [keepLast, List.length_drop]
  omega

theorem keepLast_append (n : ℕ) (l : List α) (t : α) :
    keepLast n (keepLast n l ++ [t]) = keepLast n (l ++ [t]) := by
  by_cases hshort : l.length ≤ n
  · rw [keepLast_of_length_le hshort]
  · have hlength : (keepLast n l ++ [t]).length - n = 1 := by
      rw [List.length_append, length_keepLast, List.length_singleton]
      omega
    have hdrop : (l ++ [t]).length - n = l.length - n + 1 := by
      rw [List.length_append, List.length_singleton]
      omega
    have hfits : l.length - n ≤ l.length := Nat.sub_le _ _
    rw [keepLast, hlength, keepLast, keepLast, hdrop, ← List.drop_drop,
      List.drop_append_of_le_length hfits]

section Recent
variable [LinearOrder α]

/-- How many times of a record are not before the cutoff. -/
def recent (cutoff : α) (l : List α) : ℕ := l.countP (fun t => cutoff ≤ t)

theorem recent_anti {c c' : α} (h : c ≤ c') (l : List α) : recent c' l ≤ recent c l :=
  List.countP_mono_left fun _ _ ht => decide_eq_true (h.trans (of_decide_eq_true ht))

theorem recent_append (c : α) (l l' : List α) : recent c (l ++ l') = recent c l + recent c l' :=
  List.countP_append

/-- In a record in order the recent times come last, so the buffer has them up to its length. -/
theorem recent_keepLast {l : List α} (hl : l.Pairwise (· ≤ ·)) (n : ℕ) (c : α) :
    recent c (keepLast n l) = min n (recent c l) := by
  have hsplit : l.take (l.length - n) ++ keepLast n l = l := List.take_append_drop _ l
  have hsum : recent c l = recent c (l.take (l.length - n)) + recent c (keepLast n l) := by
    rw [← recent_append, hsplit]
  have hkept : recent c (keepLast n l) ≤ min n l.length :=
    length_keepLast n l ▸ List.countP_le_length
  by_cases hold : ∃ t ∈ l.take (l.length - n), c ≤ t
  · -- a recent time has left the buffer, so all those in it are recent
    obtain ⟨t, ht, hrecent⟩ := hold
    have hlater : ∀ u ∈ keepLast n l, decide (c ≤ u) = true := by
      intro u hu
      rw [← hsplit] at hl
      exact decide_eq_true (hrecent.trans ((List.pairwise_append.mp hl).2.2 t ht u hu))
    have hall : recent c (keepLast n l) = (keepLast n l).length := List.countP_eq_length.mpr hlater
    have hlong : n < l.length := by
      have hpos := List.length_pos_of_mem ht
      rw [List.length_take] at hpos
      omega
    rw [length_keepLast] at hall
    omega
  · have hnone : recent c (l.take (l.length - n)) = 0 := by
      refine List.countP_eq_zero.mpr fun t ht => ?_
      simpa using fun hrecent => hold ⟨t, ht, hrecent⟩
    omega

/-- A buffer of length `n` of a record made in order and up to `now`. -/
structure Buffered (n : ℕ) (buffer record : List α) (now : α) : Prop where
  kept : buffer = keepLast n record
  sorted : record.Pairwise (· ≤ ·)
  past : ∀ t ∈ record, t ≤ now

namespace Buffered
variable {n : ℕ} {buffer record : List α} {now t : α}

theorem nil (n : ℕ) (now : α) : Buffered n [] [] now :=
  ⟨(keepLast_of_length_le (Nat.zero_le n)).symm, .nil, fun _ ht => absurd ht List.not_mem_nil⟩

theorem wait (h : Buffered n buffer record now) (ht : now ≤ t) : Buffered n buffer record t :=
  ⟨h.kept, h.sorted, fun u hu => (h.past u hu).trans ht⟩

theorem push (h : Buffered n buffer record now) (ht : now ≤ t) :
    Buffered n (keepLast n (buffer ++ [t])) (record ++ [t]) t := by
  refine ⟨?_, ?_, fun u hu => ?_⟩
  · rw [h.kept, keepLast_append]
  · refine List.pairwise_append.mpr ⟨h.sorted, List.pairwise_singleton _ _, fun u hu v hv => ?_⟩
    obtain rfl := List.mem_singleton.mp hv
    exact (h.past u hu).trans ht
  · rcases List.mem_append.mp hu with hold | hnew
    · exact (h.past u hold).trans ht
    · exact (List.mem_singleton.mp hnew).le

theorem recent_eq (h : Buffered n buffer record now) (c : α) :
    recent c buffer = min n (recent c record) := by
  rw [h.kept, recent_keepLast h.sorted]

end Buffered

end Recent

section Limit
variable [AddCommGroup α] [LinearOrder α]

def within (w a : α) (l : List α) : ℕ := l.countP (fun t => a ≤ t ∧ t ≤ a + w)

/-- No window of width `w` has more than `limit` times in it. -/
def Limited (w : α) (limit : ℤ) (l : List α) : Prop := ∀ a, within w a l ≤ limit

theorem within_le_recent {w a c : α} (h : c ≤ a) (l : List α) : within w a l ≤ recent c l := by
  refine List.countP_mono_left fun _ _ hin => ?_
  exact decide_eq_true (h.trans (of_decide_eq_true hin).1)

theorem limited_nil_iff {w : α} {limit : ℤ} : Limited w limit [] ↔ 0 ≤ limit :=
  ⟨fun h => h 0, fun h _ => h⟩

/-- A check that finds room at `c` allows one more time from `c` on. -/
theorem Limited.append [IsOrderedAddMonoid α] {w c t : α} {limit : ℤ} {l : List α}
    (h : Limited w limit l) (hroom : recent (c - w) l < limit) (ht : c ≤ t) :
    Limited w limit (l ++ [t]) := by
  intro a
  rw [within, List.countP_append, List.countP_singleton]
  split_ifs with hin
  · -- a window that has `t` in it begins after the cutoff of the check
    have hbegin : c - w ≤ a := sub_le_iff_le_add.mpr (ht.trans (of_decide_eq_true hin).2)
    have hold : within w a l ≤ recent (c - w) l := within_le_recent hbegin l
    unfold within at hold
    omega
  · exact h a

end Limit

end Window
