import KalshiAgent.Fills.Booking
import KalshiAgent.Lib.Execution

/-! Runs of successful polls of one process against a server on which fills keep appearing. The
server answers a poll with exactly the fills visible from the requested second on; the question
is whether the mark ever passes a fill that is still to appear. -/

namespace KalshiAgent
open Execution

structure TimedFill extends KalshiFill where
  time : Time
  dated : createdTime = some time
  deriving DecidableEq

namespace TimedFill

def second (f : TimedFill) : ℤ := epochSecond f.time

def identity (f : TimedFill) : FillIdentity := ⟨f.orderId, f.ticker, f.time, f.count⟩

theorem lookupIdentity_eq (f : TimedFill) {a : Arrival} (h : a.fill = f.toKalshiFill) :
    a.lookupIdentity = f.identity := by
  rw [Arrival.lookupIdentity, h, KalshiFill.identityAt, f.dated]
  rfl

theorem storedIdentity_eq (f : TimedFill) {a : Arrival} (h : a.fill = f.toKalshiFill) :
    a.storedIdentity = f.identity := by
  rw [Arrival.storedIdentity, h, KalshiFill.identityAt, f.dated]
  rfl

end TimedFill

def asked (highWaterTs : Option ℤ) (second : ℤ) : Bool :=
  (requestMinTs highWaterTs).all (fun minTs => minTs ≤ second)

structure PollRun where
  visible : List TimedFill
  db : Db
  highWaterTs : Option ℤ

/-- The pages of a poll hold exactly the visible fills it asks for, and no call raised. -/
def AnswersAll (s : PollRun) (script : ListFills) : Prop :=
  (∀ a ∈ script.returned, ∃ f ∈ s.visible,
      a.fill = f.toKalshiFill ∧ asked s.highWaterTs f.second = true) ∧
    (∀ f ∈ s.visible, asked s.highWaterTs f.second = true →
      ∃ a ∈ script.returned, a.fill = f.toKalshiFill) ∧
    script.failure = none

instance (s : PollRun) (script : ListFills) : Decidable (AnswersAll s script) :=
  inferInstanceAs (Decidable (_ ∧ _ ∧ _))

inductive PollStep
  -- a fill becomes visible on the server, no older than those before it
  | appear (f : TimedFill)
  | poll (script : ListFills)

def pollRunStep (env : IngestEnv) (s : PollRun) : PollStep → Option PollRun
  | .appear f =>
    if ∀ g ∈ s.visible, g.time ≤ f.time then some { s with visible := s.visible ++ [f] } else none
  | .poll script =>
    if AnswersAll s script then
      let fetched := fetchAndApply env s.db s.highWaterTs (fun _ => script)
      match fetched.result with
      | .ok _ => some { s with db := fetched.db, highWaterTs := fetched.highWaterTs }
      | .error _ => none
    else none

def AllApplied (s : PollRun) : Prop := ∀ f ∈ s.visible, s.db.hasFill f.identity = true

/-- After a poll every visible fill has been applied. -/
def PollApplies (env : IngestEnv) (s : PollRun) : PollStep → Prop
  | .appear _ => True
  | .poll script => ∀ s', pollRunStep env s (.poll script) = some s' → AllApplied s'

/-- The condition: a fill becomes visible in a second that the next poll asks for, or is one
with a stored fill. -/
def AppearsInTime (s : PollRun) : PollStep → Prop
  | .appear f => s.db.hasFill f.identity = true ∨ asked s.highWaterTs f.second = true
  | .poll _ => True

instance (s : PollRun) : (step : PollStep) → Decidable (AppearsInTime s step)
  | .appear _ => inferInstanceAs (Decidable (_ ∨ _))
  | .poll _ => isTrue trivial

/-- Every visible fill has been applied, or the next poll asks for it. -/
def NothingLost (s : PollRun) : Prop :=
  ∀ f ∈ s.visible, s.db.hasFill f.identity = true ∨ asked s.highWaterTs f.second = true

section Poll
variable {env : IngestEnv} {s s' : PollRun} {script : ListFills} {f : TimedFill}

theorem appear_eq_some (h : pollRunStep env s (.appear f) = some s') :
    s' = { s with visible := s.visible ++ [f] } := by
  simp only [pollRunStep] at h
  split_ifs at h
  exact (Option.some.inj h).symm

theorem poll_visible (h : pollRunStep env s (.poll script) = some s') : s'.visible = s.visible := by
  simp only [pollRunStep] at h
  split_ifs at h
  split at h
  · cases h
    rfl
  · cases h

theorem poll_hasFill_iff (h : pollRunStep env s (.poll script) = some s') (hf : f ∈ s.visible) :
    s'.db.hasFill f.identity = true ↔
      s.db.hasFill f.identity = true ∨ asked s.highWaterTs f.second = true := by
  simp only [pollRunStep] at h
  split_ifs at h with hanswers
  obtain ⟨honly, hall, _⟩ := hanswers
  cases hret : (fetchAndApply env s.db s.highWaterTs (fun _ => script)).result with
  | error e => simp [hret] at h
  | ok n =>
    obtain ⟨st, hpage, hdb, _⟩ := fetchAndApply_ok hret
    obtain ⟨db', hrun, hbooked, _⟩ := ingestPage_books rfl hpage
    have hs' : s'.db.hasFill f.identity = db'.hasFill f.identity := by
      simp only [hret, Option.some.injEq] at h
      rw [← h, ← hasFill_of_booked hbooked, ← hdb]
    rw [hs', applyFills_hasFill_iff hrun]
    constructor
    · rintro (hold | ⟨a, ha, hid⟩)
      · exact .inl hold
      · -- a booked fill with this identity has this time, so it was asked for
        obtain ⟨g, _, hag, hasked⟩ := honly a (fresh_subset ha)
        have htime : g.time = f.time := by
          rw [g.storedIdentity_eq hag] at hid
          exact congrArg FillIdentity.createdAt hid
        exact .inr (by rwa [TimedFill.second, ← htime])
    · rintro (hold | hasked)
      · exact .inl hold
      · obtain ⟨a, ha, haf⟩ := hall f hf hasked
        rw [hasFill_iff_mem, ← f.lookupIdentity_eq haf]
        refine mem_fresh ha ?_
        rw [haf, f.dated]
        exact Option.some_ne_none _

theorem pollApplies_iff (h : pollRunStep env s (.poll script) = some s') :
    PollApplies env s (.poll script) ↔ NothingLost s := by
  have happlied : AllApplied s' ↔ NothingLost s := by
    unfold AllApplied NothingLost
    rw [poll_visible h]
    exact forall₂_congr (fun f hf => poll_hasFill_iff h hf)
  rw [← happlied]
  exact ⟨fun hp => hp s' h, fun ha t ht => Option.some.inj (h.symm.trans ht) ▸ ha⟩

theorem nothingLost_of_applied (h : AllApplied s) : NothingLost s := fun f hf => .inl (h f hf)

theorem nothingLost_appear (hlost : NothingLost s) :
    NothingLost { s with visible := s.visible ++ [f] } ↔ AppearsInTime s (.appear f) := by
  constructor
  · intro h
    exact h f (List.mem_append_right _ (List.mem_singleton.mpr rfl))
  · intro h g hg
    rcases List.mem_append.mp hg with hg | hg
    · exact hlost g hg
    · obtain rfl := List.mem_singleton.mp hg
      exact h

theorem nothingLost_of_pollApplies {t : PollRun} {steps : List PollStep}
    (hrun : exec (pollRunStep env) s (steps ++ [.poll script]) = some t)
    (h : AllSteps (pollRunStep env) (PollApplies env) s (steps ++ [.poll script])) :
    NothingLost s := by
  induction steps generalizing s with
  | nil =>
    obtain ⟨s', hstep, _⟩ := exec_cons_eq_some.mp hrun
    exact (pollApplies_iff hstep).mp (h s' hstep).1
  | cons step steps ih =>
    obtain ⟨s', hstep, hrest⟩ := exec_cons_eq_some.mp hrun
    obtain ⟨hp, hps⟩ := h s' hstep
    cases step with
    | appear f =>
      have hs' := appear_eq_some hstep
      have hlost := ih hrest hps
      intro g hg
      rw [hs'] at hlost
      exact hlost g (List.mem_append_left _ hg)
    | poll script' => exact (pollApplies_iff hstep).mp hp

end Poll

/-- In a run that ends with a poll, every poll leaves all visible fills applied exactly when each
fill of the run appears in time. -/
theorem pollApplies_iff_appearsInTime {env : IngestEnv} {s t : PollRun} {steps : List PollStep}
    {script : ListFills} (hstart : NothingLost s)
    (hrun : exec (pollRunStep env) s (steps ++ [.poll script]) = some t) :
    AllSteps (pollRunStep env) (PollApplies env) s (steps ++ [.poll script]) ↔
      AllSteps (pollRunStep env) AppearsInTime s (steps ++ [.poll script]) := by
  induction steps generalizing s with
  | nil =>
    refine iff_of_true (fun s' hstep => ⟨(pollApplies_iff hstep).mpr hstart, trivial⟩) ?_
    exact fun s' hstep => ⟨trivial, trivial⟩
  | cons step steps ih =>
    obtain ⟨s', hstep, hrest⟩ := exec_cons_eq_some.mp hrun
    have hunique : ∀ u, pollRunStep env s step = some u → u = s' :=
      fun u hu => Option.some.inj (hu.symm.trans hstep)
    cases step with
    | appear f =>
      have hs' := appear_eq_some hstep
      constructor
      · intro h u hu
        obtain rfl := hunique u hu
        have hlost := nothingLost_of_pollApplies hrest (h u hu).2
        refine ⟨(nothingLost_appear hstart).mp (hs' ▸ hlost), (ih hlost hrest).mp (h u hu).2⟩
      · intro h u hu
        obtain rfl := hunique u hu
        have hlost : NothingLost u := hs' ▸ (nothingLost_appear hstart).mpr (h u hu).1
        exact ⟨trivial, (ih hlost hrest).mpr (h u hu).2⟩
    | poll script' =>
      have hp := (pollApplies_iff hstep).mpr hstart
      have hlost := nothingLost_of_applied (hp s' hstep)
      constructor
      · intro h u hu
        obtain rfl := hunique u hu
        exact ⟨trivial, (ih hlost hrest).mp (h u hu).2⟩
      · intro h u hu
        obtain rfl := hunique u hu
        exact ⟨hp, (ih hlost hrest).mpr (h u hu).2⟩

def TimedFill.arrival (f : TimedFill) : Arrival := ⟨f.toKalshiFill, f.time, f.time, f.time⟩

def boughtAt (orderId : String) (time : Time) : TimedFill where
  tradeId := some orderId
  orderId := orderId
  ticker := "FOO"
  side := .yes
  action := .buy
  count := 1
  yesPriceDollars := some (.decimal (1 / 2))
  noPriceDollars := none
  isTaker := true
  createdTime := some time
  time := time
  dated := rfl

def plainEnv : IngestEnv := ⟨7 / 100, false, id⟩

def twoSecondsRun : List PollStep :=
  [.appear (boughtAt "o1" 100200000), .poll (.last [(boughtAt "o1" 100200000).arrival]),
    .appear (boughtAt "o2" 101300000)]

theorem pollApplies_laterSecond :
    AllSteps (pollRunStep plainEnv) (PollApplies plainEnv) ⟨[], .empty, none⟩
      (twoSecondsRun ++ [.poll (.last [(boughtAt "o2" 101300000).arrival])]) := by
  have hruns : (exec (pollRunStep plainEnv) ⟨[], .empty, none⟩
      (twoSecondsRun ++ [.poll (.last [(boughtAt "o2" 101300000).arrival])])).isSome = true := by
    decide +kernel
  obtain ⟨t, ht⟩ := Option.isSome_iff_exists.mp hruns
  have hstart : NothingLost ⟨[], .empty, none⟩ := fun f hf => absurd hf List.not_mem_nil
  exact (pollApplies_iff_appearsInTime hstart ht).mpr (by decide +kernel)

def sameSecondRun : List PollStep :=
  [.appear (boughtAt "o1" 100200000), .poll (.last [(boughtAt "o1" 100200000).arrival]),
    .appear (boughtAt "o2" 100700000)]

instance (s : PollRun) : Decidable (AllApplied s) := inferInstanceAs (Decidable (∀ f ∈ s.visible, _))

/-- A second fill that appears in the second the first poll has seen is asked for by no poll. -/
theorem not_pollApplies_sameSecond :
    ¬ AllSteps (pollRunStep plainEnv) (PollApplies plainEnv) ⟨[], .empty, none⟩
      (sameSecondRun ++ [.poll (.last [])]) := by
  intro h
  have hrun : ((exec (pollRunStep plainEnv) ⟨[], .empty, none⟩ sameSecondRun).bind
      (fun t => pollRunStep plainEnv t (.poll (.last [])))).map (fun u => decide (AllApplied u)) =
        some false := by
    decide +kernel
  obtain ⟨u, hu, hmissed⟩ := Option.map_eq_some_iff.mp hrun
  obtain ⟨t, ht, hpoll⟩ := Option.bind_eq_some_iff.mp hu
  exact of_decide_eq_false hmissed (h.last ht hpoll u hpoll)

end KalshiAgent
