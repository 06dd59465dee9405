import Mathlib.Data.List.Nodup

/-! Exactly-once processing. Items carry a key; a step that skips the keys it has seen makes of a
list with repetitions what it makes of the first item of each key. -/

universe u v w x

namespace Once

variable {σ : Type u} {α : Type v} {κ : Type w} {ε : Type x}

def process (step : σ → α → Except ε σ) (s : σ) : List α → Except ε σ
  | [] => .ok s
  | a :: as =>
    match step s a with
    | .error e => .error e
    | .ok s' => process step s' as

/-- The first item of each key that is not in `seen`. -/
def firsts [DecidableEq κ] (key : α → κ) (seen : List κ) : List α → List α
  | [] => []
  | a :: as => if key a ∈ seen then firsts key seen as else a :: firsts key (seen ++ [key a]) as

/-- On the items of `P` the step leaves a state alone that has seen the key, and it remembers the
keys of the items it takes. -/
structure SkipsSeen (step : σ → α → Except ε σ) (key : α → κ) (seen : σ → List κ) (P : α → Prop) :
    Prop where
  skips : ∀ s a, P a → key a ∈ seen s → step s a = .ok s
  marks : ∀ s a s', P a → key a ∉ seen s → step s a = .ok s' → seen s' = seen s ++ [key a]

section Process
variable {step : σ → α → Except ε σ}

theorem process_append (s : σ) (as bs : List α) :
    process step s (as ++ bs) =
      match process step s as with
      | .error e => .error e
      | .ok s' => process step s' bs := by
  induction as generalizing s with
  | nil => rfl
  | cons a as ih =>
    rw [List.cons_append, process, process]
    cases step s a with
    | error e => rfl
    | ok s' => exact ih s'

variable [DecidableEq κ] {key : α → κ} {seen : σ → List κ} {P : α → Prop}

/-- Repetitions change nothing, the error that ends the list included. -/
theorem process_firsts (h : SkipsSeen step key seen P) (s : σ) {as : List α} (has : ∀ a ∈ as, P a) :
    process step s (firsts key (seen s) as) = process step s as := by
  induction as generalizing s with
  | nil => rfl
  | cons a as ih =>
    obtain ⟨ha, has⟩ := List.forall_mem_cons.mp has
    by_cases hseen : key a ∈ seen s
    · rw [firsts, if_pos hseen, process, h.skips s a ha hseen]
      exact ih s has
    · rw [firsts, if_neg hseen, process, process]
      cases hstep : step s a with
      | error e => rfl
      | ok s' =>
        rw [← h.marks s a s' ha hseen hstep]
        exact ih s' has

end Process

section Firsts
variable [DecidableEq κ] (key : α → κ)

theorem firsts_sublist (seen : List κ) (as : List α) : (firsts key seen as).Sublist as := by
  induction as generalizing seen with
  | nil => exact List.Sublist.slnil
  | cons a as ih =>
    rw [firsts]
    split_ifs
    · exact (ih seen).cons a
    · exact (ih _).cons_cons a

theorem firsts_not_mem {seen : List κ} {as : List α} {a : α} (h : a ∈ firsts key seen as) :
    key a ∉ seen := by
  induction as generalizing seen with
  | nil => exact absurd h List.not_mem_nil
  | cons b as ih =>
    rw [firsts] at h
    split_ifs at h with hseen
    · exact ih h
    · rcases List.mem_cons.mp h with rfl | h
      · exact hseen
      · exact fun hmem => ih h (List.mem_append_left _ hmem)

theorem nodup_firsts (seen : List κ) (as : List α) : ((firsts key seen as).map key).Nodup := by
  induction as generalizing seen with
  | nil => exact List.nodup_nil
  | cons a as ih =>
    rw [firsts]
    split_ifs
    · exact ih seen
    · rw [List.map_cons, List.nodup_cons]
      refine ⟨fun hmem => ?_, ih _⟩
      obtain ⟨b, hb, hkey⟩ := List.mem_map.mp hmem
      exact firsts_not_mem key hb (List.mem_append_right _ (List.mem_singleton.mpr hkey))

theorem key_mem_firsts (seen : List κ) {as : List α} {a : α} (h : a ∈ as) :
    key a ∈ seen ++ (firsts key seen as).map key := by
  induction as generalizing seen with
  | nil => exact absurd h List.not_mem_nil
  | cons b as ih =>
    rw [firsts]
    split_ifs with hseen
    · rcases List.mem_cons.mp h with rfl | h
      · exact List.mem_append_left _ hseen
      · exact ih seen h
    · rw [List.map_cons, ← List.singleton_append, ← List.append_assoc]
      rcases List.mem_cons.mp h with rfl | h
      · exact List.mem_append_left _ (List.mem_append_right _ (List.mem_singleton.mpr rfl))
      · exact ih _ h

end Firsts

end Once
