import KalshiAgent.Lib.Once

/-! Runs whose steps keep to keys. When a step reads and writes the view of its own key alone, the
views after a run depend only on the items of each key in their order, however those of different
keys are interleaved. -/

universe u v w x y

namespace PerKey
open Once

variable {σ : Type u} {α : Type v} {κ : Type w} {ε : Type x} {ν : Type y} [DecidableEq κ]

/-- The step of an item reads and writes the view of the item's key alone. -/
structure Local (step : σ → α → Except ε σ) (key : α → κ) (view : σ → κ → ν) : Prop where
  frame : ∀ {s a s' k}, step s a = .ok s' → k ≠ key a → view s' k = view s k
  congr : ∀ {s t a s'}, step s a = .ok s' → view s (key a) = view t (key a) →
    ∃ t', step t a = .ok t' ∧ view s' (key a) = view t' (key a)

def items (key : α → κ) (k : κ) (as : List α) : List α := as.filter (fun a => key a = k)

section
variable (step : σ → α → Except ε σ) (view : σ → κ → ν)

/-- What the items of a key can make of its view, each in some state. -/
def Reaches (k : κ) (v : ν) : List α → ν → Prop
  | [], w => w = v
  | a :: as, w => ∃ s s', view s k = v ∧ step s a = .ok s' ∧ Reaches k (view s' k) as w

end

variable {step : σ → α → Except ε σ} {key : α → κ} {view : σ → κ → ν}

theorem items_cons_self (a : α) (as : List α) :
    items key (key a) (a :: as) = a :: items key (key a) as :=
  List.filter_cons_of_pos (decide_eq_true rfl)

theorem items_cons_of_ne {a : α} {k : κ} (h : k ≠ key a) (as : List α) :
    items key k (a :: as) = items key k as :=
  List.filter_cons_of_neg fun heq => h (of_decide_eq_true heq).symm

variable (hlocal : Local step key view)
include hlocal

theorem reaches_of_process {s s' : σ} {as : List α} (h : process step s as = .ok s') (k : κ) :
    Reaches step view k (view s k) (items key k as) (view s' k) := by
  induction as generalizing s with
  | nil =>
    cases h
    rfl
  | cons a as ih =>
    rw [process] at h
    cases hstep : step s a with
    | error e => simp [hstep] at h
    | ok s₁ =>
      rw [hstep] at h
      by_cases hk : k = key a
      · subst hk
        rw [items_cons_self]
        exact ⟨s, s₁, rfl, hstep, ih h⟩
      · rw [items_cons_of_ne hk, ← hlocal.frame hstep hk]
        exact ih h

theorem process_of_reaches {t : σ} {bs : List α} {w : κ → ν}
    (h : ∀ k, Reaches step view k (view t k) (items key k bs) (w k)) :
    ∃ t', process step t bs = .ok t' ∧ ∀ k, view t' k = w k := by
  induction bs generalizing t with
  | nil => exact ⟨t, rfl, fun k => (h k).symm⟩
  | cons b bs ih =>
    have hb := h (key b)
    rw [items_cons_self] at hb
    obtain ⟨s, s', hsame, hstep, hrest⟩ := hb
    obtain ⟨t₁, hstep₁, hsame₁⟩ := hlocal.congr hstep hsame
    rw [process, hstep₁]
    refine ih fun k => ?_
    by_cases hk : k = key b
    · subst hk
      rw [← hsame₁]
      exact hrest
    · rw [hlocal.frame hstep₁ hk, ← items_cons_of_ne hk bs]
      exact h k

/-- Two lists with the same items of each key, from states with the same views, do the same. -/
theorem process_congr {s s' t : σ} {as bs : List α} (hviews : ∀ k, view s k = view t k)
    (hitems : ∀ k, items key k as = items key k bs) (h : process step s as = .ok s') :
    ∃ t', process step t bs = .ok t' ∧ ∀ k, view t' k = view s' k := by
  refine process_of_reaches hlocal fun k => ?_
  rw [← hitems, ← hviews]
  exact reaches_of_process hlocal h k

end PerKey
