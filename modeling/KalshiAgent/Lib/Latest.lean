import KalshiAgent.Lib.KeyedTable
import Mathlib.Data.List.Sort

/-! The rows of a keyed table with the greatest keys, the greatest first. Of the `n` latest rows
a row is one exactly when fewer than `n` rows come after it. -/

universe u v

namespace KeyedTable
variable {κ : Type u} {ρ : Type v} [LinearOrder κ] {key : ρ → κ}

theorem find_congr_of_perm {s t : KeyedTable key} (h : s.rows.Perm t.rows) (k : κ) :
    s.find k = t.find k := by
  ext r
  rw [find_eq_some_iff, find_eq_some_iff, h.mem_iff]

def descending (t : KeyedTable key) : KeyedTable key where
  rows := t.rows.insertionSort (fun a b => key b ≤ key a)
  nodup := ((List.perm_insertionSort _ t.rows).map key).nodup_iff.mpr t.nodup

def latest (t : KeyedTable key) (n : ℕ) : KeyedTable key := t.descending.take n

theorem pairwise_descending (t : KeyedTable key) :
    t.descending.rows.Pairwise (fun a b => key b < key a) := by
  have : IsTrans ρ (fun a b => key b ≤ key a) := ⟨fun _ _ _ hab hbc => hbc.trans hab⟩
  have : Std.Total (fun a b : ρ => key b ≤ key a) := ⟨fun a b => le_total (key b) (key a)⟩
  have hsorted : t.descending.rows.Pairwise (fun a b => key b ≤ key a) :=
    List.pairwise_insertionSort _ t.rows
  have hdistinct : t.descending.rows.Pairwise (fun a b => key a ≠ key b) :=
    List.pairwise_map.mp t.descending.nodup
  exact (hsorted.and hdistinct).imp (fun h => lt_of_le_of_ne h.1 h.2.symm)

theorem find?_take_of_pairwise {rows : List ρ} (h : rows.Pairwise (fun a b => key b < key a))
    (n : ℕ) (k : κ) :
    (rows.take n).find? (fun r => key r = k) =
      if (rows.filter (fun r => k < key r)).length < n then rows.find? (fun r => key r = k)
      else none := by
  induction rows generalizing n with
  | nil => split_ifs <;> simp
  | cons x xs ih =>
    obtain ⟨hx, hxs⟩ := List.pairwise_cons.mp h
    cases n with
    | zero => simp
    | succ n =>
      rw [List.take_succ_cons, List.find?_cons, List.find?_cons, ih hxs n]
      rcases lt_trichotomy (key x) k with hlt | rfl | hgt
      · have hnone : xs.find? (fun r => key r = k) = none := by
          rw [List.find?_eq_none]
          intro y hy hk
          exact absurd (of_decide_eq_true hk ▸ hx y hy) (not_lt.mpr hlt.le)
        simp [hlt.ne, hnone]
      · have hlater : xs.filter (fun r => key x < key r) = [] := by
          rw [List.filter_eq_nil_iff]
          intro y hy hlt
          exact absurd (of_decide_eq_true hlt) (not_lt.mpr (hx y hy).le)
        simp [hlater]
      · simp [hgt, hgt.ne']

theorem find_latest (t : KeyedTable key) (n : ℕ) (k : κ) :
    (t.latest n).find k =
      if (t.rows.filter (fun r => k < key r)).length < n then t.find k else none := by
  have hperm : t.descending.rows.Perm t.rows := List.perm_insertionSort _ t.rows
  have htake := find?_take_of_pairwise t.pairwise_descending n k
  rw [(hperm.filter _).length_eq] at htake
  rw [← find_congr_of_perm hperm k]
  exact htake

end KeyedTable
