import Mathlib.Data.List.Basic

/-! Runs of a system given by a partial step function on states and labels. The labels carry
every choice of the environment, so one list of labels is one run. -/

namespace Execution

variable {σ ℓ : Type*} (step : σ → ℓ → Option σ)

def exec (s : σ) : List ℓ → Option σ
  | [] => some s
  | l :: ls => (step s l).bind (fun s' => exec s' ls)

/-- `P` holds in every state the run passes through, its first included. -/
def AllStates (P : σ → Prop) (s : σ) : List ℓ → Prop
  | [] => P s
  | l :: ls => P s ∧ ∀ s', step s l = some s' → AllStates P s' ls

/-- `G` holds of every step the run takes and the state it is taken in. -/
def AllSteps (G : σ → ℓ → Prop) (s : σ) : List ℓ → Prop
  | [] => True
  | l :: ls => ∀ s', step s l = some s' → G s l ∧ AllSteps G s' ls

variable {step}

theorem exec_cons_eq_some {s t : σ} {l : ℓ} {ls : List ℓ} :
    exec step s (l :: ls) = some t ↔ ∃ s', step s l = some s' ∧ exec step s' ls = some t := by
  simp [exec, Option.bind_eq_some_iff]

theorem exec_append (s : σ) (ls ms : List ℓ) :
    exec step s (ls ++ ms) = (exec step s ls).bind (fun t => exec step t ms) := by
  induction ls generalizing s with
  | nil => rfl
  | cons l ls ih =>
    rw [List.cons_append, exec, exec]
    cases step s l with
    | none => rfl
    | some s' => exact ih s'

theorem exec_append_eq_some {s t : σ} {ls ms : List ℓ} :
    exec step s (ls ++ ms) = some t ↔ ∃ u, exec step s ls = some u ∧ exec step u ms = some t := by
  rw [exec_append, Option.bind_eq_some_iff]

theorem exec_origin {α : Type*} {P : σ → α → Prop} {Q : σ → ℓ → α → Prop}
    (hstep : ∀ s l s', step s l = some s' → ∀ x, P s' x → P s x ∨ Q s l x) {s t : σ}
    {ls : List ℓ} (hrun : exec step s ls = some t) {x : α} (hx : P t x) :
    P s x ∨ ∃ before l after u, ls = before ++ l :: after ∧ exec step s before = some u ∧
      Q u l x := by
  induction ls generalizing s with
  | nil =>
    cases hrun
    exact .inl hx
  | cons l ls ih =>
    obtain ⟨s', hl, ht⟩ := exec_cons_eq_some.mp hrun
    rcases ih ht with hearly | ⟨before, m, after, u, rfl, hbefore, hQ⟩
    · rcases hstep s l s' hl x hearly with hstart | hnew
      · exact .inl hstart
      · exact .inr ⟨[], l, ls, s, rfl, rfl, hnew⟩
    · exact .inr ⟨l :: before, m, after, u, rfl, exec_cons_eq_some.mpr ⟨s', hl, hbefore⟩, hQ⟩

instance decidableAllSteps {G : σ → ℓ → Prop} [∀ s l, Decidable (G s l)] (s : σ) :
    (ls : List ℓ) → Decidable (AllSteps step G s ls)
  | [] => isTrue trivial
  | l :: ls =>
    match h : step s l with
    | none => isTrue fun s' hs' => absurd (h.symm.trans hs') (Option.some_ne_none s').symm
    | some s' =>
      have : Decidable (AllSteps step G s' ls) := decidableAllSteps s' ls
      decidable_of_iff (G s l ∧ AllSteps step G s' ls)
        ⟨fun hg _ ht => Option.some.inj (h.symm.trans ht) ▸ hg, fun hg => hg s' h⟩

theorem AllStates.head {P : σ → Prop} {s : σ} {ls : List ℓ} (h : AllStates step P s ls) : P s := by
  cases ls with
  | nil => exact h
  | cons l ls => exact h.1

theorem AllStates.last {P : σ → Prop} {s t : σ} {ls : List ℓ} (h : AllStates step P s ls)
    (hrun : exec step s ls = some t) : P t := by
  induction ls generalizing s with
  | nil => exact Option.some.inj hrun ▸ h
  | cons l ls ih =>
    obtain ⟨s', hl, ht⟩ := exec_cons_eq_some.mp hrun
    exact ih (h.2 s' hl) ht

/-- What holds along a run holds of the state behind a computed view of its last one. -/
theorem AllStates.last_view {α : Type*} {P : σ → Prop} {s : σ} {ls : List ℓ} {view : σ → α} {a : α}
    (h : AllStates step P s ls) (hrun : (exec step s ls).map view = some a) :
    ∃ t, P t ∧ view t = a := by
  obtain ⟨t, ht, hview⟩ := Option.map_eq_some_iff.mp hrun
  exact ⟨t, h.last ht, hview⟩

theorem not_allStates_of_decide {P : σ → Prop} [DecidablePred P] {s : σ} {ls : List ℓ}
    (hrun : (exec step s ls).map (fun t => decide (P t)) = some false) : ¬ AllStates step P s ls := by
  intro h
  obtain ⟨t, ht, hview⟩ := h.last_view hrun
  exact of_decide_eq_false hview ht

/-- The induction over a run: an invariant that implies `P` keeps the whole run in `P`. -/
theorem allStates_of_invariant {I P : σ → Prop} (hstep : ∀ s l s', I s → step s l = some s' → I s')
    (himp : ∀ s, I s → P s) {s : σ} (hs : I s) (ls : List ℓ) : AllStates step P s ls := by
  induction ls generalizing s with
  | nil => exact himp s hs
  | cons l ls ih => exact ⟨himp s hs, fun s' hl => ih (hstep s l s' hs hl)⟩

/-- The same rule for runs whose steps all meet a guard. -/
theorem allStates_of_allSteps {I P : σ → Prop} {G : σ → ℓ → Prop}
    (hstep : ∀ s l s', I s → G s l → step s l = some s' → I s') (himp : ∀ s, I s → P s) {s : σ}
    {ls : List ℓ} (hs : I s) (hg : AllSteps step G s ls) : AllStates step P s ls := by
  induction ls generalizing s with
  | nil => exact himp s hs
  | cons l ls ih =>
    refine ⟨himp s hs, fun s' hl => ?_⟩
    obtain ⟨hgl, hrest⟩ := hg s' hl
    exact ih (hstep s l s' hs hgl hl) hrest

theorem allSteps_of_invariant {I : σ → Prop} {H : σ → ℓ → Prop}
    (hstep : ∀ s l s', I s → step s l = some s' → I s')
    (himp : ∀ s l s', I s → step s l = some s' → H s l) {s : σ} (hs : I s) (ls : List ℓ) :
    AllSteps step H s ls := by
  induction ls generalizing s with
  | nil => trivial
  | cons l ls ih =>
    intro s' hl
    exact ⟨himp s l s' hs hl, ih (hstep s l s' hs hl)⟩

theorem allSteps_of_allSteps {I : σ → Prop} {G H : σ → ℓ → Prop}
    (hstep : ∀ s l s', I s → G s l → step s l = some s' → I s') (himp : ∀ s l, I s → G s l → H s l)
    {s : σ} {ls : List ℓ} (hs : I s) (hg : AllSteps step G s ls) : AllSteps step H s ls := by
  induction ls generalizing s with
  | nil => trivial
  | cons l ls ih =>
    intro s' hl
    obtain ⟨hgl, hrest⟩ := hg s' hl
    exact ⟨himp s l hs hgl, ih (hstep s l s' hs hgl hl) hrest⟩

theorem allSteps_of_allStates {I P : σ → Prop} {H : σ → ℓ → Prop}
    (hinv : ∀ s l s', I s → step s l = some s' → I s') (himp : ∀ s l, I s → P s → H s l) {s : σ}
    {ls : List ℓ} (hI : I s) (h : AllStates step P s ls) : AllSteps step H s ls := by
  induction ls generalizing s with
  | nil => trivial
  | cons l ls ih =>
    intro s' hl
    exact ⟨himp s l hI h.1, ih (hinv s l s' hI hl) (h.2 s' hl)⟩

theorem AllSteps.and {G H : σ → ℓ → Prop} {s : σ} {ls : List ℓ} (hg : AllSteps step G s ls)
    (hh : AllSteps step H s ls) : AllSteps step (fun s l => G s l ∧ H s l) s ls := by
  induction ls generalizing s with
  | nil => trivial
  | cons l ls ih =>
    intro s' hl
    exact ⟨⟨(hg s' hl).1, (hh s' hl).1⟩, ih (hg s' hl).2 (hh s' hl).2⟩

theorem AllSteps.last {G : σ → ℓ → Prop} {s t u : σ} {ls : List ℓ} {l : ℓ}
    (h : AllSteps step G s (ls ++ [l])) (hrun : exec step s ls = some t)
    (hlast : step t l = some u) : G t l := by
  induction ls generalizing s with
  | nil =>
    cases hrun
    exact (h u hlast).1
  | cons m ls ih =>
    obtain ⟨s', hm, ht⟩ := exec_cons_eq_some.mp hrun
    exact ih (h s' hm).2 ht

theorem allSteps_congr {I : σ → Prop} {G H : σ → ℓ → Prop} {s : σ} {ls : List ℓ}
    (hinv : ∀ s l s', I s → step s l = some s' → I s')
    (hsame : ∀ s l s', I s → step s l = some s' → (G s l ↔ H s l)) (hI : I s) :
    AllSteps step G s ls ↔ AllSteps step H s ls := by
  induction ls generalizing s with
  | nil => exact Iff.rfl
  | cons l ls ih =>
    constructor
    · intro h s' hl
      exact ⟨(hsame s l s' hI hl).mp (h s' hl).1, (ih (hinv s l s' hI hl)).mp (h s' hl).2⟩
    · intro h s' hl
      exact ⟨(hsame s l s' hI hl).mpr (h s' hl).1, (ih (hinv s l s' hI hl)).mpr (h s' hl).2⟩

/-- Where a step keeps `P` exactly when it meets the guard, a run stays in `P` exactly when
all its steps meet the guard. -/
theorem allStates_iff_allSteps {I P : σ → Prop} {G : σ → ℓ → Prop} {s : σ} {ls : List ℓ}
    (hinv : ∀ s l s', I s → step s l = some s' → I s')
    (hstep : ∀ s l s', I s → P s → step s l = some s' → (P s' ↔ G s l))
    (hI : I s) (hs : P s) : AllStates step P s ls ↔ AllSteps step G s ls := by
  induction ls generalizing s with
  | nil => exact ⟨fun _ => trivial, fun _ => hs⟩
  | cons l ls ih =>
    constructor
    · rintro ⟨_, hrest⟩ s' hl
      have hs' : P s' := (hrest s' hl).head
      exact ⟨(hstep s l s' hI hs hl).mp hs', (ih (hinv s l s' hI hl) hs').mp (hrest s' hl)⟩
    · intro h
      refine ⟨hs, fun s' hl => ?_⟩
      obtain ⟨hg, hrest⟩ := h s' hl
      exact (ih (hinv s l s' hI hl) ((hstep s l s' hI hs hl).mpr hg)).mpr hrest

end Execution
