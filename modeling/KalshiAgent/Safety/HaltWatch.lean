import KalshiAgent.Lib.Execution
import KalshiAgent.Safety.HaltActions

/-! The halt monitor over whole runs: engagements and disengagements at any time, ticks, orders
that reach the book, and database writes that raise. The monitor compares each sample with the
one before, so an engagement it has not sampled apart from the last one goes unseen. -/

namespace KalshiAgent
open Execution

structure RestingOrder where
  orderId : String
  engagement : ℕ
  deriving DecidableEq

/-- A call of `cancel_all_resting`: the engagements begun before it, what rested then, and whether
it succeeded. -/
structure CancelAllCall where
  engagement : ℕ
  targets : List RestingOrder
  succeeded : Bool

structure HaltWatch where
  kill : KillSwitch
  monitor : HaltMonitor
  -- false once an exception has ended the loop
  alive : Bool
  db : Db
  resting : List RestingOrder
  -- ghost state: the engagements since the monitor started, whether the last one was sampled apart,
  -- the last call, and whether the last step ended a tick that had sampled the switch engaged
  engagements : ℕ
  apart : Bool
  call : Option CancelAllCall
  processed : Bool

def HaltWatch.start (kill : KillSwitch) (db : Db) (orderIds : List String) : HaltWatch where
  kill := kill
  monitor := .start kill
  alive := true
  db := db
  resting := orderIds.map (fun orderId => ⟨orderId, 0⟩)
  engagements := 0
  apart := false
  call := none
  processed := false

inductive HaltWatchStep
  | engage (reason : HaltReason) (source : String)
  | disengage
  | places (orderId : String)
  | leaves (orderId : String)
  -- a turn of the loop; `written` says whether its database write, if it makes one, succeeds
  | tick (written : Bool)
  -- the end of a turn that cancels: the orders that are off, and the write after it
  | cancelled (n : ℤ) (succeeded : Bool) (off : List String) (written : Bool)

def haltWatchStep (s : HaltWatch) : HaltWatchStep → Option HaltWatch
  | .engage reason source =>
    some { s with
      kill := s.kill.engage reason source
      engagements := if s.kill.isEngaged then s.engagements else s.engagements + 1
      -- the monitor has sampled the switch disengaged, and is not cancelling for an earlier one
      apart :=
        if s.kill.isEngaged then s.apart else !s.monitor.lastState && s.monitor.cancelling.isNone
      processed := false }
  | .disengage => some { s with kill := s.kill.disengage.1, processed := false }
  | .places orderId =>
    some { s with resting := s.resting ++ [⟨orderId, s.engagements⟩], processed := false }
  | .leaves orderId =>
    some { s with resting := s.resting.filter (fun o => o.orderId ≠ orderId), processed := false }
  | .tick written =>
    if s.alive ∧ s.monitor.cancelling.isNone then
      if ¬ s.kill.isEngaged ∧ s.monitor.lastState ∧ ¬ written then
        some { s with alive := false, processed := false }
      else
        let (monitor, db) := s.monitor.tick s.db s.kill
        some { s with
          monitor := monitor
          db := db
          call := if monitor.cancelling.isSome then some ⟨s.engagements, s.resting, false⟩ else s.call
          processed := s.kill.isEngaged && monitor.cancelling.isNone }
    else none
  | .cancelled n succeeded off written =>
    match s.monitor.cancelling, s.call with
    | some _, some call =>
      if s.alive ∧ (succeeded → ∀ o ∈ call.targets, o.orderId ∈ off) then
        let resting := s.resting.filter (fun o => o.orderId ∉ off)
        let call := { call with succeeded := succeeded }
        if written then
          let (monitor, db) := s.monitor.cancelled s.db n
          some { s with
            monitor := monitor
            db := db
            resting := resting
            call := some call
            processed := true }
        else
          some { s with resting := resting, call := some call, alive := false, processed := false }
      else none
    | _, _ => none

/-- The orders were asked to be cancelled after the most recent engagement, and if that succeeded
none placed before the engagement rests. -/
def CalledSince (s : HaltWatch) : Prop :=
  ∃ call, s.call = some call ∧ call.engagement = s.engagements ∧
    (call.succeeded = true → ∀ o ∈ s.resting, s.engagements ≤ o.engagement)

def HaltComplete (s : HaltWatch) : Prop := s.processed = true → CalledSince s

/-- The same, where the switch has been engaged since the monitor started and its last engagement
was sampled apart from what came before it. -/
def HaltCompleteApart (s : HaltWatch) : Prop :=
  s.processed = true → 0 < s.engagements → s.apart = true → CalledSince s

/-- The monitor has called for the last engagement: what was placed before it is what the call is
to cancel, and is off once the call has succeeded. -/
def CallCovers (s : HaltWatch) : Prop :=
  ∃ call, s.call = some call ∧ call.engagement = s.engagements ∧
    (s.monitor.cancelling ≠ none → ∀ o ∈ s.resting, o.engagement < s.engagements →
      o ∈ call.targets) ∧
    (s.monitor.cancelling = none → call.succeeded = true →
      ∀ o ∈ s.resting, s.engagements ≤ o.engagement)

structure HaltWatchInvariant (s : HaltWatch) : Prop where
  seen : s.alive = true → 0 < s.engagements → s.apart = true →
    (s.monitor.lastState = false ∧ s.monitor.cancelling = none) ∨ CallCovers s
  processed : s.processed = true →
    s.alive = true ∧ s.monitor.lastState = true ∧ s.monitor.cancelling = none

section
variable {s s' : HaltWatch}

theorem HaltWatchInvariant.complete (hI : HaltWatchInvariant s) : HaltCompleteApart s := by
  intro hprocessed hsome hapart
  obtain ⟨halive, hlast, hidle⟩ := hI.processed hprocessed
  obtain ⟨hfresh, _⟩ | ⟨call, hcall, hengagement, _, hover⟩ := hI.seen halive hsome hapart
  · exact absurd (hlast.symm.trans hfresh) Bool.false_ne_true.symm
  · exact ⟨call, hcall, hengagement, hover hidle⟩

theorem HaltWatchInvariant.trade (hI : HaltWatchInvariant s) {resting : List RestingOrder}
    (hresting : ∀ o ∈ resting, o ∈ s.resting ∨ s.engagements ≤ o.engagement) :
    HaltWatchInvariant { s with resting := resting, processed := false } := by
  refine ⟨fun halive hsome hapart => ?_, fun h => absurd h Bool.false_ne_true⟩
  refine (hI.seen halive hsome hapart).imp_right ?_
  rintro ⟨call, hcall, hengagement, htargets, hover⟩
  refine ⟨call, hcall, hengagement, fun hbusy o ho hbefore => ?_, fun hidle hsucceeded o ho => ?_⟩
  · exact htargets hbusy o ((hresting o ho).resolve_right (not_le.mpr hbefore)) hbefore
  · exact (hresting o ho).elim (hover hidle hsucceeded o) id

theorem HaltWatchInvariant.tick (hI : HaltWatchInvariant s) {written : Bool}
    (h : haltWatchStep s (.tick written) = some s') : HaltWatchInvariant s' := by
  simp only [haltWatchStep] at h
  split_ifs at h with hruns hdies hrises
  · -- the write of `_on_disengaged` has raised
    cases h
    exact ⟨fun h => absurd h Bool.false_ne_true, fun h => absurd h Bool.false_ne_true⟩
  · cases h
    obtain ⟨_, _, htick⟩ | ⟨_, htick⟩ :=
      s.monitor.tick_cases s.db s.kill (Option.isNone_iff_eq_none.mp hruns.2)
    · refine ⟨fun _ _ _ => .inr ⟨_, rfl, rfl, fun _ o ho _ => ho, fun hnone => ?_⟩, fun hdone => ?_⟩
      · rw [hnone] at hrises
        exact absurd hrises Bool.false_ne_true
      · simp [htick] at hdone
    · rw [htick] at hrises
      exact absurd hrises Bool.false_ne_true
  · cases h
    have hidle : s.monitor.cancelling = none := Option.isNone_iff_eq_none.mp hruns.2
    obtain ⟨_, _, htick⟩ | ⟨hheld, htick⟩ := s.monitor.tick_cases s.db s.kill hidle
    · rw [htick] at hrises
      exact absurd rfl hrises
    · refine ⟨fun halive hsome hapart => ?_, fun hdone => ?_⟩
      · cases hkill : s.kill.isEngaged with
        | false => exact .inl (by rw [htick, hkill]; exact ⟨rfl, rfl⟩)
        | true =>
          obtain ⟨hfresh, _⟩ | ⟨call, hcall, hengagement, _, hover⟩ := hI.seen halive hsome hapart
          · exact absurd (hfresh.symm.trans (hheld hkill)) Bool.false_ne_true
          · refine .inr ⟨call, hcall, hengagement, fun hbusy => ?_, fun _ => hover hidle⟩
            rw [htick] at hbusy
            exact absurd rfl hbusy
      · simp only [htick, Option.isNone_none, Bool.and_true] at hdone ⊢
        exact ⟨hruns.1, hdone, trivial⟩

theorem HaltWatchInvariant.cancelled (hI : HaltWatchInvariant s) {n : ℤ} {succeeded : Bool}
    {off : List String} {written : Bool}
    (h : haltWatchStep s (.cancelled n succeeded off written) = some s') :
    HaltWatchInvariant s' := by
  simp only [haltWatchStep] at h
  split at h
  · next reason call hbusy hcall =>
    split_ifs at h with hoff hwritten
    · cases h
      have hcancelled : s.monitor.cancelled s.db n = (⟨true, none⟩, onEngaged s.db reason n) := by
        rw [HaltMonitor.cancelled, hbusy]
      rw [hcancelled]
      refine ⟨fun halive hsome hapart => ?_, fun _ => ⟨hoff.1, rfl, rfl⟩⟩
      obtain ⟨_, hidle⟩ | ⟨call', hcall', hengagement, htargets, _⟩ := hI.seen halive hsome hapart
      · exact absurd (hbusy.symm.trans hidle) (Option.some_ne_none reason)
      · cases hcall.symm.trans hcall'
        refine .inr ⟨_, rfl, hengagement, fun hnone => absurd rfl hnone, fun _ hsucceeded o ho => ?_⟩
        obtain ⟨hrests, hkept⟩ := List.mem_filter.mp ho
        by_contra hbefore
        have htarget := htargets (hbusy ▸ Option.some_ne_none reason) o hrests (not_le.mp hbefore)
        exact of_decide_eq_true hkept (hoff.2 hsucceeded o htarget)
    · cases h
      exact ⟨fun h => absurd h Bool.false_ne_true, fun h => absurd h Bool.false_ne_true⟩
  · cases h

theorem HaltWatchInvariant.step {step : HaltWatchStep} (hI : HaltWatchInvariant s)
    (h : haltWatchStep s step = some s') : HaltWatchInvariant s' := by
  cases step with
  | engage reason source =>
    cases h
    refine ⟨fun halive hsome hapart => ?_, fun h => absurd h Bool.false_ne_true⟩
    cases hkill : s.kill.isEngaged with
    | true =>
      simp only [hkill, if_true] at hsome hapart ⊢
      exact hI.seen halive hsome hapart
    | false =>
      simp only [hkill, Bool.false_eq_true, if_false, Bool.and_eq_true, Bool.not_eq_true',
        Option.isNone_iff_eq_none] at hapart
      exact .inl hapart
  | disengage =>
    cases h
    exact ⟨hI.seen, fun h => absurd h Bool.false_ne_true⟩
  | places orderId =>
    cases h
    refine hI.trade fun o ho => ?_
    rcases List.mem_append.mp ho with hold | hnew
    · exact .inl hold
    · obtain rfl := List.mem_singleton.mp hnew
      exact .inr le_rfl
  | leaves orderId =>
    cases h
    exact hI.trade fun o ho => .inl (List.mem_of_mem_filter ho)
  | tick written => exact hI.tick h
  | cancelled n succeeded off written => exact hI.cancelled h

end

/-- Where the last engagement was sampled apart, a processed tick that has sampled the switch
engaged means that a cancel-all call was made after it, whatever came before. -/
theorem halt_complete (kill : KillSwitch) (db : Db) (orderIds : List String)
    (steps : List HaltWatchStep) :
    AllStates haltWatchStep HaltCompleteApart (.start kill db orderIds) steps := by
  refine allStates_of_invariant (I := HaltWatchInvariant) (fun s step s' hI h => hI.step h)
    (fun s hI => hI.complete) ⟨?_, ?_⟩ steps
  · exact fun _ hsome => absurd hsome (lt_irrefl 0)
  · exact fun h => absurd h Bool.false_ne_true

structure MissedInvariant (s : HaltWatch) : Prop where
  past : ∀ call, s.call = some call → call.engagement ≤ s.engagements
  held : s.apart = false → s.kill.isEngaged = true →
    s.monitor.lastState = true ∨ s.monitor.cancelling ≠ none
  missed : s.apart = false → 0 < s.engagements → ∀ call, s.call = some call →
    call.engagement < s.engagements

theorem MissedInvariant.tick {s s' : HaltWatch} (hI : MissedInvariant s) {written : Bool}
    (h : haltWatchStep s (.tick written) = some s') : MissedInvariant s' := by
  simp only [haltWatchStep] at h
  split_ifs at h with hruns hdies hrises
  · cases h
    exact ⟨hI.past, hI.held, hI.missed⟩
  · cases h
    have hidle : s.monitor.cancelling = none := Option.isNone_iff_eq_none.mp hruns.2
    obtain ⟨hengaged, hlast, _⟩ | ⟨_, htick⟩ := s.monitor.tick_cases s.db s.kill hidle
    · have hapart : s.apart ≠ false := fun hapart =>
        (hI.held hapart hengaged).elim (fun hheld => Bool.false_ne_true (hlast.symm.trans hheld))
          (fun hbusy => hbusy hidle)
      refine ⟨fun call hcall => ?_, fun hnot => absurd hnot hapart, fun hnot => absurd hnot hapart⟩
      exact (congrArg CancelAllCall.engagement (Option.some.inj hcall)).ge
    · rw [htick] at hrises
      exact absurd hrises Bool.false_ne_true
  · cases h
    have hidle : s.monitor.cancelling = none := Option.isNone_iff_eq_none.mp hruns.2
    obtain ⟨_, _, htick⟩ | ⟨_, htick⟩ := s.monitor.tick_cases s.db s.kill hidle
    · rw [htick] at hrises
      exact absurd rfl hrises
    · refine ⟨hI.past, fun _ hengaged => .inl ?_, hI.missed⟩
      rw [htick]
      exact hengaged

theorem MissedInvariant.step {s s' : HaltWatch} {step : HaltWatchStep} (hI : MissedInvariant s)
    (h : haltWatchStep s step = some s') : MissedInvariant s' := by
  cases step with
  | engage reason source =>
    cases h
    cases hkill : s.kill.isEngaged with
    | true =>
      refine ⟨?_, ?_, ?_⟩
      · simpa [hkill] using hI.past
      · simpa [hkill] using fun hapart => hI.held hapart hkill
      · simpa [hkill] using hI.missed
    | false =>
      have hlater : ∀ call, s.call = some call → call.engagement < s.engagements + 1 :=
        fun call hcall => Nat.lt_succ_of_le (hI.past call hcall)
      refine ⟨fun call hcall => ?_, fun hapart _ => ?_, fun _ _ call hcall => ?_⟩
      · simpa [hkill] using (hlater call hcall).le
      · cases hlast : s.monitor.lastState with
        | true => exact .inl rfl
        | false =>
          have hbusy : s.monitor.cancelling.isSome = true := by simpa [hlast] using hapart
          exact .inr (Option.isSome_iff_ne_none.mp hbusy)
      · simpa [hkill] using hlater call hcall
  | disengage =>
    cases h
    exact ⟨hI.past, fun _ hengaged => absurd hengaged Bool.false_ne_true, hI.missed⟩
  | places orderId =>
    cases h
    exact ⟨hI.past, hI.held, hI.missed⟩
  | leaves orderId =>
    cases h
    exact ⟨hI.past, hI.held, hI.missed⟩
  | tick written => exact hI.tick h
  | cancelled n succeeded off written =>
    simp only [haltWatchStep] at h
    split at h
    · next reason call hbusy hcall =>
      have hsame : ∀ call', some { call with succeeded := succeeded } = some call' →
          call'.engagement = call.engagement :=
        fun call' hcall' => (congrArg CancelAllCall.engagement (Option.some.inj hcall')).symm
      split_ifs at h with hoff hwritten
      · cases h
        have hcancelled : s.monitor.cancelled s.db n = (⟨true, none⟩, onEngaged s.db reason n) := by
          rw [HaltMonitor.cancelled, hbusy]
        rw [hcancelled]
        refine ⟨fun call' hcall' => ?_, fun _ _ => .inl rfl, fun hapart hsome call' hcall' => ?_⟩
        · exact (hsame call' hcall').trans_le (hI.past call hcall)
        · exact (hsame call' hcall').trans_lt (hI.missed hapart hsome call hcall)
      · cases h
        refine ⟨fun call' hcall' => ?_, hI.held, fun hapart hsome call' hcall' => ?_⟩
        · exact (hsame call' hcall').trans_le (hI.past call hcall)
        · exact (hsame call' hcall').trans_lt (hI.missed hapart hsome call hcall)
    · cases h

/-- A call of the last engagement is made only where it was sampled apart. -/
theorem apart_of_calledSince (kill : KillSwitch) (db : Db) (orderIds : List String)
    (steps : List HaltWatchStep) :
    AllStates haltWatchStep (fun s => 0 < s.engagements → CalledSince s → s.apart = true)
      (.start kill db orderIds) steps := by
  have hstart : MissedInvariant (.start kill db orderIds) :=
    ⟨fun call hcall => absurd hcall (Option.some_ne_none call).symm, fun _ hengaged => .inl hengaged,
      fun _ hsome => absurd hsome (lt_irrefl 0)⟩
  refine allStates_of_invariant (I := MissedInvariant) (fun s step s' hI h => hI.step h)
    (fun s hI hsome hcalled => ?_) hstart steps
  obtain ⟨call, hcall, hengagement, _⟩ := hcalled
  by_contra hapart
  exact (hI.missed (Bool.eq_false_iff.mpr hapart) hsome call hcall).ne hengagement

def haltOnce : List HaltWatchStep :=
  [.places "k1", .tick true, .engage (.manual "drill") "http", .tick true,
    .cancelled 1 true ["k1"] true]

def haltAgain : List HaltWatchStep :=
  haltOnce ++ [.disengage, .engage (.manual "drill") "http", .disengage, .tick true, .places "k2",
    .engage (.manual "drill") "http", .tick true, .cancelled 1 true ["k2"] true]

theorem halt_complete_again :
    ∃ s, exec haltWatchStep (.start ⟨none⟩ .empty []) haltAgain = some s ∧ s.engagements = 3 ∧
      CalledSince s := by
  have hrun : (exec haltWatchStep (.start ⟨none⟩ .empty []) haltAgain).map
      (fun s => (s.processed, s.engagements, s.apart)) = some (true, 3, true) := by
    decide
  obtain ⟨s, hs, hend⟩ := Option.map_eq_some_iff.mp hrun
  simp only [Prod.mk.injEq] at hend
  obtain ⟨hprocessed, hengagements, hapart⟩ := hend
  have hcomplete := (halt_complete ⟨none⟩ .empty [] haltAgain).last hs
  exact ⟨s, hs, hengagements, hcomplete hprocessed (hengagements ▸ by decide) hapart⟩

theorem not_complete_of_run {s : HaltWatch} {steps : List HaltWatchStep} {called : Option ℕ} {e : ℕ}
    (hrun : (exec haltWatchStep s steps).map
      (fun t => (t.processed, t.call.map CancelAllCall.engagement, t.engagements)) =
        some (true, called, e)) (hne : called ≠ some e) :
    ¬ AllStates haltWatchStep HaltComplete s steps := by
  intro h
  obtain ⟨t, ht, hend⟩ := h.last_view hrun
  simp only [Prod.mk.injEq] at hend
  obtain ⟨hprocessed, hcalled, hengagements⟩ := hend
  obtain ⟨call, hcall, hengagement, _⟩ := ht hprocessed
  rw [hcall, Option.map_some, hengagement, hengagements] at hcalled
  exact hne hcalled.symm

/-- A switch engaged before the monitor starts is never acted on; and one that is released and
engaged again between two samples is taken for the same engagement. -/
theorem not_haltComplete :
    ¬ AllStates haltWatchStep HaltComplete
        (.start ⟨some ⟨.manual "drill", "http"⟩⟩ .empty ["k1"]) [.tick true] ∧
      ¬ AllStates haltWatchStep HaltComplete (.start ⟨none⟩ .empty [])
        (haltOnce ++ [.disengage, .places "k2", .engage (.manual "drill") "http", .tick true]) :=
  ⟨not_complete_of_run rfl (Option.some_ne_none 0).symm,
    not_complete_of_run rfl (by decide : some 1 ≠ some 2)⟩

end KalshiAgent
