import Mathlib.Algebra.BigOperators.Group.List.Basic
import Mathlib.Data.List.Nodup
import Mathlib.Tactic.Abel

/-! Tables with a primary key, as insertion-ordered lists of rows whose keys are distinct.
Writing a row replaces the row with its key in place, or appends it. -/

universe u v w

/-- Replace the row that has the key of `r` by `r`, or append `r`. -/
def List.upsertRow {κ : Type u} {ρ : Type v} [DecidableEq κ] (key : ρ → κ) (r : ρ) : List ρ → List ρ
  | [] => [r]
  | x :: xs => if key x = key r then r :: xs else x :: List.upsertRow key r xs

structure KeyedTable {κ : Type u} {ρ : Type v} (key : ρ → κ) where
  rows : List ρ
  nodup : (rows.map key).Nodup

namespace KeyedTable

variable {κ : Type u} {ρ : Type v} [DecidableEq κ] {key : ρ → κ}

theorem mem_keys_upsertRow {r : ρ} {rows : List ρ} {k : κ}
    (h : k ∈ (rows.upsertRow key r).map key) : k = key r ∨ k ∈ rows.map key := by
  induction rows with
  | nil => simpa [List.upsertRow] using h
  | cons x xs ih =>
    rw [List.upsertRow] at h
    split at h
    · next hx =>
      rw [List.map_cons, List.mem_cons] at h
      exact h.imp id (List.mem_cons_of_mem _)
    · rw [List.map_cons, List.mem_cons] at h
      rcases h with h | h
      · exact .inr (h ▸ List.mem_cons_self)
      · exact (ih h).imp id (List.mem_cons_of_mem _)

theorem nodup_upsertRow (r : ρ) {rows : List ρ} (h : (rows.map key).Nodup) :
    ((rows.upsertRow key r).map key).Nodup := by
  induction rows with
  | nil => simp [List.upsertRow]
  | cons x xs ih =>
    rw [List.map_cons, List.nodup_cons] at h
    rw [List.upsertRow]
    split
    · next hx => rwa [List.map_cons, ← hx, List.nodup_cons]
    · next hx =>
      rw [List.map_cons, List.nodup_cons]
      refine ⟨fun hmem => ?_, ih h.2⟩
      exact (mem_keys_upsertRow hmem).elim hx h.1

def empty : KeyedTable key := ⟨[], List.nodup_nil⟩

instance : Inhabited (KeyedTable key) := ⟨empty⟩

instance [DecidableEq ρ] : DecidableEq (KeyedTable key) := fun s t =>
  decidable_of_iff (s.rows = t.rows) ⟨fun h => by cases s; cases t; cases h; rfl, fun h => h ▸ rfl⟩

def find (t : KeyedTable key) (k : κ) : Option ρ := t.rows.find? (fun r => key r = k)

def put (t : KeyedTable key) (r : ρ) : KeyedTable key :=
  ⟨t.rows.upsertRow key r, nodup_upsertRow r t.nodup⟩

def putAll (t : KeyedTable key) (rs : List ρ) : KeyedTable key := rs.foldl put t

/-- The table that `{key r: r for r in rs}` builds: the last row of a key wins, in the place of the
first. -/
def ofList (rs : List ρ) : KeyedTable key := empty.putAll rs

def sum {M : Type w} [AddCommGroup M] (t : KeyedTable key) (f : ρ → M) : M := (t.rows.map f).sum

@[simp] theorem find_empty (k : κ) : (empty : KeyedTable key).find k = none := rfl

omit [DecidableEq κ] in
@[simp] theorem rows_empty : (empty : KeyedTable key).rows = [] := rfl

omit [DecidableEq κ] in
@[simp] theorem sum_empty {M : Type w} [AddCommGroup M] (f : ρ → M) :
    (empty : KeyedTable key).sum f = 0 := rfl

theorem find_key {t : KeyedTable key} {k : κ} {r : ρ} (h : t.find k = some r) : key r = k := by
  simpa using List.find?_some h

theorem mem_of_find {t : KeyedTable key} {k : κ} {r : ρ} (h : t.find k = some r) : r ∈ t.rows :=
  List.mem_of_find?_eq_some h

private theorem find?_of_mem {rows : List ρ} {r : ρ} (hn : (rows.map key).Nodup) (h : r ∈ rows) :
    rows.find? (fun x => key x = key r) = some r := by
  induction rows with
  | nil => simp at h
  | cons x xs ih =>
    rw [List.map_cons, List.nodup_cons] at hn
    by_cases hx : key x = key r
    · rcases List.mem_cons.mp h with rfl | hmem
      · simp
      · exact absurd (hx ▸ List.mem_map_of_mem hmem) hn.1
    · rcases List.mem_cons.mp h with rfl | hmem
      · exact absurd rfl hx
      · simpa [List.find?_cons, hx] using ih hn.2 hmem

theorem find_of_mem {t : KeyedTable key} {r : ρ} (h : r ∈ t.rows) : t.find (key r) = some r :=
  find?_of_mem t.nodup h

theorem find_eq_some_iff {t : KeyedTable key} {k : κ} {r : ρ} :
    t.find k = some r ↔ r ∈ t.rows ∧ key r = k :=
  ⟨fun h => ⟨mem_of_find h, find_key h⟩, fun ⟨hm, hk⟩ => hk ▸ find_of_mem hm⟩

private theorem find?_upsertRow (r : ρ) (rows : List ρ) (k : κ) :
    (rows.upsertRow key r).find? (fun x => key x = k) =
      if key r = k then some r else rows.find? (fun x => key x = k) := by
  induction rows with
  | nil => by_cases h : key r = k <;> simp [List.upsertRow, h]
  | cons x xs ih =>
    by_cases hx : key x = key r
    · by_cases h : key r = k <;> simp [List.upsertRow, hx, h]
    · simp only [List.upsertRow, hx, if_false, List.find?_cons, ih]
      by_cases hk : key x = k
      · have hr : key r ≠ k := fun hr => hx (hk.trans hr.symm)
        simp [hk, hr]
      · simp [hk]

theorem find_put (t : KeyedTable key) (r : ρ) (k : κ) :
    (t.put r).find k = if key r = k then some r else t.find k := find?_upsertRow r t.rows k

@[simp] theorem find_put_self (t : KeyedTable key) (r : ρ) : (t.put r).find (key r) = some r := by
  simp [find_put]

theorem mem_put {t : KeyedTable key} {r x : ρ} :
    x ∈ (t.put r).rows ↔ x = r ∨ (x ∈ t.rows ∧ key x ≠ key r) := by
  have hfind : x ∈ (t.put r).rows ↔ (t.put r).find (key x) = some x :=
    ⟨find_of_mem, mem_of_find⟩
  rw [hfind, find_put]
  by_cases hk : key r = key x
  · simp [hk, eq_comm]
  · have hne : x ≠ r := fun h => hk (h ▸ rfl)
    simp [hk, hne, Ne.symm hk, find_eq_some_iff]

theorem put_put (t : KeyedTable key) {r r' : ρ} (h : key r = key r') :
    (t.put r).put r' = t.put r' := by
  have hrows : ∀ rows : List ρ, (rows.upsertRow key r).upsertRow key r' = rows.upsertRow key r' := by
    intro rows
    induction rows with
    | nil => simp only [List.upsertRow, h, if_true]
    | cons x xs ih =>
      rw [List.upsertRow, List.upsertRow, h]
      split_ifs with hx
      · rw [List.upsertRow, if_pos h]
      · rw [List.upsertRow, if_neg hx, ih]
  unfold put
  congr 1
  exact hrows t.rows

theorem find_putAll (t : KeyedTable key) {rs : List ρ} (h : (rs.map key).Nodup) (k : κ) :
    (t.putAll rs).find k = (rs.find? (fun r => key r = k)).or (t.find k) := by
  induction rs generalizing t with
  | nil => simp [putAll]
  | cons r rs ih =>
    rw [List.map_cons, List.nodup_cons] at h
    change ((t.put r).putAll rs).find k = _
    rw [ih _ h.2, find_put]
    by_cases hk : key r = k
    · have hnone : rs.find? (fun x => key x = k) = none := by
        rw [List.find?_eq_none]
        intro x hx hxk
        have hkx : key x = k := by simpa using hxk
        exact h.1 (hk.trans hkx.symm ▸ List.mem_map_of_mem hx)
      simp [hk, hnone]
    · simp [hk]

theorem find_ofList {rs : List ρ} (h : (rs.map key).Nodup) (k : κ) :
    (ofList rs : KeyedTable key).find k = rs.find? (fun r => key r = k) := by
  rw [ofList, find_putAll _ h, find_empty, Option.or_none]

theorem find_ofList_rows (t : KeyedTable key) (k : κ) :
    (ofList t.rows : KeyedTable key).find k = t.find k := find_ofList t.nodup k

theorem find_ofList_of_mem {rs : List ρ} (h : (rs.map key).Nodup) {r : ρ} (hr : r ∈ rs) :
    (ofList rs : KeyedTable key).find (key r) = some r := (find_ofList h _).trans (find?_of_mem h hr)

def take (t : KeyedTable key) (n : ℕ) : KeyedTable key :=
  ⟨t.rows.take n, (t.nodup.sublist ((List.take_sublist n t.rows).map key))⟩

theorem find_take_of_mem_drop {t : KeyedTable key} {n : ℕ} {r : ρ} (h : r ∈ t.rows.drop n) :
    (t.take n).find (key r) = none := by
  have hsplit : ((t.rows.take n ++ t.rows.drop n).map key).Nodup := by
    rw [List.take_append_drop]
    exact t.nodup
  rw [List.map_append, List.nodup_append] at hsplit
  unfold find take
  rw [List.find?_eq_none]
  intro x hx hkey
  exact hsplit.2.2 _ (List.mem_map_of_mem hx) _ (List.mem_map_of_mem h) (of_decide_eq_true hkey)

theorem find?_filterMap {ρ' : Type w} {key' : ρ' → κ} {f : ρ → Option ρ'} {rows : List ρ}
    (hkey : ∀ x y, f x = some y → key' y = key x) (hn : (rows.map key).Nodup) (k : κ) :
    (rows.filterMap f).find? (fun y => key' y = k) =
      (rows.find? (fun x => key x = k)).bind f := by
  induction rows with
  | nil => rfl
  | cons x xs ih =>
    rw [List.map_cons, List.nodup_cons] at hn
    have hnone : key x = k → xs.find? (fun y => key y = k) = none := by
      rintro rfl
      rw [List.find?_eq_none]
      intro y hy hyk
      exact hn.1 (of_decide_eq_true hyk ▸ List.mem_map_of_mem hy)
    cases hf : f x with
    | none =>
      rw [List.filterMap_cons_none hf, ih hn.2, List.find?_cons]
      by_cases hk : key x = k
      · simp [hk, hnone hk, hf]
      · simp [hk]
    | some y =>
      rw [List.filterMap_cons_some hf, List.find?_cons, List.find?_cons, ih hn.2, hkey x y hf]
      by_cases hk : key x = k <;> simp [hk, hf]

omit [DecidableEq κ] in
theorem nodup_filterMap {ρ' : Type w} {key' : ρ' → κ} {f : ρ → Option ρ'} {rows : List ρ}
    (hkey : ∀ x y, f x = some y → key' y = key x) (hn : (rows.map key).Nodup) :
    ((rows.filterMap f).map key').Nodup := by
  induction rows with
  | nil => simp
  | cons x xs ih =>
    rw [List.map_cons, List.nodup_cons] at hn
    cases hf : f x with
    | none =>
      rw [List.filterMap_cons_none hf]
      exact ih hn.2
    | some y =>
      rw [List.filterMap_cons_some hf, List.map_cons, List.nodup_cons]
      refine ⟨fun hmem => hn.1 ?_, ih hn.2⟩
      obtain ⟨z, hz, hzy⟩ := List.mem_map.mp hmem
      obtain ⟨w, hw, hwz⟩ := List.mem_filterMap.mp hz
      rw [← hkey x y hf, ← hzy, hkey w z hwz]
      exact List.mem_map_of_mem hw

private theorem sum_upsertRow {M : Type w} [AddCommGroup M] (f : ρ → M) (r : ρ) (rows : List ρ) :
    ((rows.upsertRow key r).map f).sum =
      (rows.map f).sum + f r - ((rows.find? (fun x => key x = key r)).map f).getD 0 := by
  induction rows with
  | nil => simp [List.upsertRow]
  | cons x xs ih =>
    by_cases hx : key x = key r
    · simp only [List.upsertRow, hx, if_true, List.map_cons, List.sum_cons, List.find?_cons,
        decide_true, Option.map_some, Option.getD_some]
      abel
    · simp only [List.upsertRow, hx, if_false, List.map_cons, List.sum_cons, List.find?_cons,
        decide_false, ih]
      abel

theorem sum_put {M : Type w} [AddCommGroup M] (t : KeyedTable key) (f : ρ → M) (r : ρ) :
    (t.put r).sum f = t.sum f + f r - ((t.find (key r)).map f).getD 0 := sum_upsertRow f r t.rows

private theorem sum_rows_at {M : Type w} [AddCommGroup M] {f : ρ → M} {k : κ} {rows : List ρ}
    (hn : (rows.map key).Nodup) (hf : ∀ x, key x ≠ k → f x = 0) :
    (rows.map f).sum = ((rows.find? (fun x => key x = k)).map f).getD 0 := by
  induction rows with
  | nil => rfl
  | cons x xs ih =>
    rw [List.map_cons, List.nodup_cons] at hn
    rw [List.map_cons, List.sum_cons, List.find?_cons]
    by_cases hx : key x = k
    · have hrest : (xs.map f).sum = 0 := by
        refine List.sum_eq_zero fun y hy => ?_
        obtain ⟨z, hz, rfl⟩ := List.mem_map.mp hy
        refine hf z fun hzk => hn.1 ?_
        rw [hx, ← hzk]
        exact List.mem_map_of_mem hz
      simp [hx, hrest]
    · simp [hx, hf x hx, ih hn.2]

/-- A sum over the table with a row put, where the summand changes at that row's key alone. -/
theorem sum_put_of_agree {M : Type w} [AddCommGroup M] (t : KeyedTable key) {f g : ρ → M} (r : ρ)
    (h : ∀ x, key x ≠ key r → g x = f x) :
    (t.put r).sum g = t.sum f + g r - ((t.find (key r)).map f).getD 0 := by
  have hdiff : t.sum (fun x => g x - f x) =
      ((t.find (key r)).map (fun x => g x - f x)).getD 0 :=
    sum_rows_at t.nodup fun x hx => sub_eq_zero.mpr (h x hx)
  have hsub : t.sum (fun x => g x - f x) = t.sum g - t.sum f := by
    unfold sum
    induction t.rows with
    | nil => simp
    | cons x xs ih =>
      simp only [List.map_cons, List.sum_cons, ih]
      abel
  rw [sum_put]
  rw [hsub] at hdiff
  cases hfind : t.find (key r) with
  | none =>
    rw [hfind] at hdiff
    rw [sub_eq_zero.mp hdiff]
    rfl
  | some old =>
    rw [hfind] at hdiff
    rw [sub_eq_iff_eq_add.mp hdiff]
    simp only [Option.map_some, Option.getD_some]
    abel

section MapRows
variable {ρ' : Type w} {key' : ρ' → κ} {f : ρ → ρ'} (hkey : ∀ r, key' (f r) = key r)

def mapRows (t : KeyedTable key) : KeyedTable key' :=
  ⟨t.rows.map f, by
    rw [List.map_map, show key' ∘ f = key from funext hkey]
    exact t.nodup⟩

theorem find_mapRows (t : KeyedTable key) (k : κ) :
    (t.mapRows hkey).find k = (t.find k).map f := by
  have hpred : (fun r => decide (key' r = k)) ∘ f = fun r => decide (key r = k) := by
    funext r
    rw [Function.comp_apply, hkey]
  unfold find mapRows
  rw [List.find?_map, hpred]

include hkey in
private theorem upsertRow_map (r : ρ) (rows : List ρ) :
    (rows.map f).upsertRow key' (f r) = (rows.upsertRow key r).map f := by
  induction rows with
  | nil => rfl
  | cons x xs ih =>
    rw [List.map_cons, List.upsertRow, List.upsertRow, hkey, hkey]
    split_ifs with hx
    · rw [List.map_cons]
    · rw [ih, List.map_cons]

theorem put_mapRows (t : KeyedTable key) (r : ρ) :
    (t.mapRows hkey).put (f r) = (t.put r).mapRows hkey := by
  unfold put mapRows
  congr 1
  exact upsertRow_map hkey r t.rows

omit [DecidableEq κ] in
theorem sum_mapRows {M : Type*} [AddCommGroup M] (t : KeyedTable key) (g : ρ' → M) :
    (t.mapRows hkey).sum g = t.sum (g ∘ f) := by
  unfold sum mapRows
  rw [List.map_map]

end MapRows

end KeyedTable
