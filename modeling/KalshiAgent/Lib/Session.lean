import Mathlib.Data.List.Basic

/-! Sessions of a service: each event changes its state and may be answered. Where some events
leave the state as it is, a session without them ends in the same state and answers the others as
before; what these events themselves are answered is a function of what they see. -/

namespace Session
variable {σ ε ρ : Type*} (step : σ → ε → σ × List ρ)

def run (s : σ) : List ε → σ × List ρ
  | [] => (s, [])
  | e :: es =>
    let (s', answers) := step s e
    let (last, later) := run s' es
    (last, answers ++ later)

variable {step}

theorem run_cons (s : σ) (e : ε) (es : List ε) :
    run step s (e :: es) =
      ((run step (step s e).1 es).1, (step s e).2 ++ (run step (step s e).1 es).2) := rfl

section Purge
variable {keep : ε → Bool} (hidle : ∀ s e, keep e = false → (step s e).1 = s)
include hidle

theorem run_fst_filter (s : σ) (es : List ε) :
    (run step s (es.filter keep)).1 = (run step s es).1 := by
  induction es generalizing s with
  | nil => rfl
  | cons e es ih =>
    rw [run_cons]
    cases hkeep : keep e with
    | true =>
      rw [List.filter_cons_of_pos hkeep, run_cons]
      exact ih (step s e).1
    | false =>
      rw [List.filter_cons_of_neg (by rw [hkeep]; exact Bool.false_ne_true), ih]
      dsimp only
      rw [hidle s e hkeep]

theorem run_snd_filter {mark : ρ → Bool}
    (hkept : ∀ s e, keep e = true → ∀ r ∈ (step s e).2, mark r = true)
    (hdropped : ∀ s e, keep e = false → ∀ r ∈ (step s e).2, mark r = false) (s : σ)
    (es : List ε) : (run step s es).2.filter mark = (run step s (es.filter keep)).2 := by
  induction es generalizing s with
  | nil => rfl
  | cons e es ih =>
    rw [run_cons]
    dsimp only
    rw [List.filter_append, ih]
    cases hkeep : keep e with
    | true =>
      rw [List.filter_cons_of_pos hkeep, run_cons, List.filter_eq_self.mpr (hkept s e hkeep)]
    | false =>
      have hnone : (step s e).2.filter mark = [] := by
        rw [List.filter_eq_nil_iff]
        intro r hr
        rw [hdropped s e hkeep r hr]
        exact Bool.false_ne_true
      rw [List.filter_cons_of_neg (by rw [hkeep]; exact Bool.false_ne_true), hnone, hidle s e hkeep,
        List.nil_append]

end Purge

def glimpses {γ : Type*} (step : σ → ε → σ × List ρ) (see : σ → ε → List γ) (s : σ) : List ε → List γ
  | [] => []
  | e :: es => see s e ++ glimpses step see (step s e).1 es

theorem run_snd_glimpses {γ : Type*} {see : σ → ε → List γ} {mark : ρ → Bool} {answer : γ → ρ}
    (hsees : ∀ s e, (step s e).2.filter mark = (see s e).map answer) (s : σ) (es : List ε) :
    (run step s es).2.filter mark = (glimpses step see s es).map answer := by
  induction es generalizing s with
  | nil => rfl
  | cons e es ih =>
    rw [run_cons]
    dsimp only
    rw [List.filter_append, ih, hsees, glimpses, List.map_append]

end Session
