import KalshiAgent.Lib.Execution
import Mathlib.Data.Fintype.Basic

/-! Tasks of one thread over a database with one writer. A session collects its changes, a query
flushes them first, and a flushed change holds the write lock until its session commits or is
closed. The tasks take turns, and a turn lasts until its task waits for something. -/

namespace OneWriter
open Execution

variable {α ι τ : Type*}

inductive Op (α : Type*)
  | query
  | write (change : α → α)
  | flush
  | commit
  | close
  -- an await that suspends the task
  | pause

def Op.waits : Op α → Bool
  | .pause => true
  | _ => false

structure Session (α : Type*) where
  pending : List (α → α)
  flushed : List (α → α)

namespace Session

def closed : Session α := ⟨[], []⟩

def flush (s : Session α) : Session α := ⟨[], s.flushed ++ s.pending⟩

def holds (s : Session α) : Bool := !s.flushed.isEmpty

/-- The tables as the session's transaction would commit them. -/
def view (s : Session α) (db : α) : α :=
  (s.flushed ++ s.pending).foldl (fun db change => change db) db

def after (s : Session α) : Op α → Session α
  | .query => s.flush
  | .flush => s.flush
  | .write change => { s with pending := s.pending ++ [change] }
  | .commit => closed
  | .close => closed
  | .pause => s

def committed (s : Session α) (db : α) : Op α → α
  | .commit => s.view db
  | _ => db

def needsLock (s : Session α) : Op α → Bool
  | .query => !s.pending.isEmpty
  | .flush => !s.pending.isEmpty
  | .commit => !s.pending.isEmpty
  | _ => false

end Session

/-- A turn of a task: what it has committed, its session, and what it does when it is resumed. -/
structure Turn (α : Type*) where
  db : α
  session : Session α
  rest : List (Op α)
  -- "database is locked" was raised, and the session is rolled back
  locked : Bool

def run (busy : Bool) (db : α) (s : Session α) : List (Op α) → Turn α
  | [] => ⟨db, s, [], false⟩
  | .pause :: ops => ⟨db, s, ops, false⟩
  | op :: ops =>
    match busy && s.needsLock op with
    | true => ⟨db, .closed, [], true⟩
    | false => run busy (s.committed db op) (s.after op) ops

/-- What the operations commit when no other task is in the way. -/
def finish (db : α) (s : Session α) : List (Op α) → α
  | [] => db
  | op :: ops => finish (s.committed db op) (s.after op) ops

/-- Wherever the operations wait they hold the lock, and in the end the session is closed. -/
def Grips (s : Session α) : List (Op α) → Prop
  | [] => s = .closed
  | .pause :: ops => s.holds = true ∧ Grips s ops
  | op :: ops => Grips (s.after op) ops

def changed (db : α) : List (Op α) → α
  | [] => db
  | .write change :: ops => changed (change db) ops
  | _ :: ops => changed db ops

def Op.stays : Op α → Bool
  | .commit => false
  | .close => false
  | _ => true

theorem changed_append (db : α) (xs ys : List (Op α)) :
    changed db (xs ++ ys) = changed (changed db xs) ys := by
  induction xs generalizing db with
  | nil => rfl
  | cons op xs ih => cases op <;> exact ih _

theorem Session.view_flush (s : Session α) (db : α) : s.flush.view db = s.view db := by
  simp only [Session.view, Session.flush, List.append_nil]

theorem Session.view_write (s : Session α) (change : α → α) (db : α) :
    (s.after (.write change)).view db = change (s.view db) := by
  simp only [Session.view, Session.after, ← List.append_assoc, List.foldl_append, List.foldl_cons,
    List.foldl_nil]

section Stays
variable {xs : List (Op α)} (hxs : ∀ op ∈ xs, op.stays = true)
include hxs

theorem view_foldl (s : Session α) (db : α) :
    (xs.foldl Session.after s).view db = changed (s.view db) xs := by
  induction xs generalizing s with
  | nil => rfl
  | cons op xs ih =>
    obtain ⟨hop, hrest⟩ := List.forall_mem_cons.mp hxs
    rw [List.foldl_cons, ih hrest]
    cases op with
    | query | flush => exact congrArg (fun view => changed view xs) (s.view_flush db)
    | write change => exact congrArg (fun view => changed view xs) (s.view_write change db)
    | pause => rfl
    | commit | close => exact absurd hop Bool.false_ne_true

theorem finish_append (db : α) (s : Session α) (ys : List (Op α)) :
    finish db s (xs ++ ys) = finish db (xs.foldl Session.after s) ys := by
  induction xs generalizing s with
  | nil => rfl
  | cons op xs ih =>
    obtain ⟨hop, hrest⟩ := List.forall_mem_cons.mp hxs
    cases op with
    | commit | close => exact absurd hop Bool.false_ne_true
    | query | write change | flush | pause => exact ih hrest _

theorem finish_commit (db : α) (s : Session α) (ys : List (Op α)) :
    finish db s (xs ++ .commit :: .close :: ys) = finish (changed (s.view db) xs) .closed ys := by
  rw [finish_append hxs, ← view_foldl hxs]
  rfl

theorem holds_foldl {s : Session α} (hs : s.holds = true) :
    (xs.foldl Session.after s).holds = true := by
  induction xs generalizing s with
  | nil => exact hs
  | cons op xs ih =>
    obtain ⟨hop, hrest⟩ := List.forall_mem_cons.mp hxs
    have hflushed : s.flush.holds = true := by
      unfold Session.holds Session.flush at *
      rw [Bool.not_eq_true', List.isEmpty_eq_false_iff] at hs ⊢
      exact List.append_ne_nil_of_left_ne_nil hs _
    cases op with
    | query | flush => exact ih hrest hflushed
    | write change | pause => exact ih hrest hs
    | commit | close => exact absurd hop Bool.false_ne_true

end Stays

section Run
variable {s : Session α} {ops : List (Op α)}

theorem finish_run (db : α) (s : Session α) (ops : List (Op α)) :
    finish (run false db s ops).db (run false db s ops).session (run false db s ops).rest =
      finish db s ops := by
  induction ops generalizing db s with
  | nil => rfl
  | cons op ops ih =>
    cases op with
    | pause => rfl
    | query | write change | flush | commit | close => exact ih _ _

theorem run_grips (h : Grips s ops) (busy : Bool) (db : α) :
    Grips (run busy db s ops).session (run busy db s ops).rest ∧
      ((run busy db s ops).session.holds = false → (run busy db s ops).rest = []) := by
  induction ops generalizing db s with
  | nil => exact ⟨h, fun _ => rfl⟩
  | cons op ops ih =>
    cases op with
    | pause => exact ⟨h.2, fun hfree => absurd (h.1.symm.trans hfree) Bool.false_ne_true.symm⟩
    | query | write change | flush | commit | close =>
      rw [run]
      · split
        · exact ⟨rfl, fun _ => rfl⟩
        · exact ih h _
      · exact nofun

/-- Nothing locks out a turn that nobody is in the way of, and it gives the lock back unless it
has to wait. -/
theorem run_free (h : Grips s ops) (db : α) :
    (run false db s ops).locked = false ∧
      ((run false db s ops).session.holds = false ↔ ∀ op ∈ ops, op.waits = false) := by
  induction ops generalizing db s with
  | nil =>
    cases h
    exact ⟨rfl, fun _ _ hop => absurd hop List.not_mem_nil, fun _ => rfl⟩
  | cons op ops ih =>
    cases op with
    | pause =>
      refine ⟨rfl, fun hfree => ?_, fun hall => ?_⟩
      · exact absurd (h.1.symm.trans hfree) Bool.false_ne_true.symm
      · exact absurd (hall .pause List.mem_cons_self).symm Bool.false_ne_true
    | query | write change | flush | commit | close =>
      obtain ⟨hlocked, hfree⟩ := ih h _
      refine ⟨hlocked, hfree.trans ?_⟩
      rw [List.forall_mem_cons]
      exact ⟨fun hall => ⟨rfl, hall⟩, fun hall => hall.2⟩

theorem run_finish (h : Grips s ops) (hops : ∀ op ∈ ops, op.waits = false) (db : α) :
    (run false db s ops).db = finish db s ops := by
  have hfree := (run_free h db).2.mpr hops
  have hrest := (run_grips h false db).2 hfree
  have hfinish := finish_run db s ops
  rwa [hrest] at hfinish

theorem grips_append (hops : ∀ op ∈ ops, op.waits = false) (s : Session α) (ys : List (Op α)) :
    Grips s (ops ++ ys) ↔ Grips (ops.foldl Session.after s) ys := by
  induction ops generalizing s with
  | nil => rfl
  | cons op ops ih =>
    obtain ⟨hop, hrest⟩ := List.forall_mem_cons.mp hops
    cases op with
    | pause => exact absurd hop.symm Bool.false_ne_true
    | query | write change | flush | commit | close => exact ih hrest _

theorem grips_close (hops : ∀ op ∈ ops, op.waits = false) (s : Session α) :
    Grips s (ops ++ [.close]) := (grips_append hops s [.close]).mpr rfl

end Run

structure Suspended (α : Type*) where
  session : Session α
  rest : List (Op α)

structure Tasks (ι α : Type*) where
  db : α
  tasks : ι → Suspended α

def Tasks.start (db : α) : Tasks ι α := ⟨db, fun _ => ⟨.closed, []⟩⟩

inductive Choice (ι τ : Type*)
  | starts (turn : τ)
  | wakes (task : ι)

namespace Tasks

/-- No suspended task has flushed something and not committed it. -/
def AtRest (s : Tasks ι α) : Prop := ∀ i, (s.tasks i).session.holds = false

variable [DecidableEq ι] [Fintype ι] (task : τ → ι) (code : τ → α → List (Op α))

instance (s : Tasks ι α) : Decidable s.AtRest := by
  unfold AtRest
  infer_instance

def busy (s : Tasks ι α) (i : ι) : Bool :=
  decide (∃ j, j ≠ i ∧ (s.tasks j).session.holds = true)

def turn (s : Tasks ι α) : Choice ι τ → Option (ι × Turn α)
  | .starts t =>
    match (s.tasks (task t)).rest with
    | [] =>
      some (task t, run (s.busy (task t)) s.db (s.tasks (task t)).session (code t s.db))
    | _ => none
  | .wakes i =>
    match (s.tasks i).rest with
    | [] => none
    | rest => some (i, run (s.busy i) s.db (s.tasks i).session rest)

def step (s : Tasks ι α) (choice : Choice ι τ) : Option (Tasks ι α) :=
  (s.turn task code choice).map
    (fun p => ⟨p.2.db, Function.update s.tasks p.1 ⟨p.2.session, p.2.rest⟩⟩)

def Unblocked (s : Tasks ι α) (choice : Choice ι τ) : Prop :=
  ∀ p, s.turn task code choice = some p → p.2.locked = false

instance (s : Tasks ι α) (choice : Choice ι τ) : Decidable (s.Unblocked task code choice) :=
  match h : s.turn task code choice with
  | none => isTrue fun _ hp => absurd (h.symm.trans hp) (Option.some_ne_none _).symm
  | some p =>
    decidable_of_iff (p.2.locked = false)
      ⟨fun hp _ hq => Option.some.inj (h.symm.trans hq) ▸ hp, fun hall => hall p h⟩

def RunsThrough (s : Tasks ι α) : Choice ι τ → Prop
  | .starts t => ∀ op ∈ code t s.db, op.waits = false
  | .wakes _ => True

end Tasks

section Tasks
variable [DecidableEq ι] [Fintype ι] {task : τ → ι} {code : τ → α → List (Op α)}

def Gripped (s : Tasks ι α) : Prop :=
  ∀ i, Grips (s.tasks i).session (s.tasks i).rest ∧
    ((s.tasks i).session.holds = false → (s.tasks i).rest = [])

theorem Tasks.AtRest.busy {s : Tasks ι α} (h : s.AtRest) (i : ι) : s.busy i = false := by
  apply decide_eq_false
  rintro ⟨j, _, hj⟩
  exact Bool.false_ne_true ((h j).symm.trans hj)

variable (hcode : ∀ t db, Grips .closed (code t db))
include hcode

theorem Gripped.turn {s : Tasks ι α} {choice : Choice ι τ} {p : ι × Turn α} (hI : Gripped s)
    (h : s.turn task code choice = some p) :
    ∃ ops, Grips (s.tasks p.1).session ops ∧
      p.2 = run (s.busy p.1) s.db (s.tasks p.1).session ops ∧
      (s.AtRest → (s.RunsThrough code choice ↔ ∀ op ∈ ops, op.waits = false)) := by
  cases choice with
  | starts t =>
    simp only [Tasks.turn] at h
    split at h
    · next hrest =>
      cases h
      obtain ⟨hgrips, _⟩ := hI (task t)
      rw [hrest] at hgrips
      rw [show (s.tasks (task t)).session = .closed from hgrips]
      exact ⟨_, hcode t s.db, rfl, fun _ => Iff.rfl⟩
    · cases h
  | wakes i =>
    simp only [Tasks.turn] at h
    split at h
    · cases h
    · next hrest =>
      cases h
      obtain ⟨hgrips, hfree⟩ := hI i
      exact ⟨_, hgrips, rfl, fun hs => absurd (hfree (hs i)) hrest⟩

theorem Gripped.step {s s' : Tasks ι α} {choice : Choice ι τ} (hI : Gripped s)
    (h : s.step task code choice = some s') : Gripped s' := by
  obtain ⟨p, hp, rfl⟩ := Option.map_eq_some_iff.mp h
  obtain ⟨ops, hgrips, hturn, _⟩ := hI.turn hcode hp
  intro i
  rcases eq_or_ne i p.1 with rfl | hi
  · simp only [Function.update_self]
    rw [hturn]
    exact run_grips hgrips _ _
  · simp only [Function.update_of_ne hi]
    exact hI i

theorem Gripped.atRest_iff {s s' : Tasks ι α} {choice : Choice ι τ} (hI : Gripped s) (hs : s.AtRest)
    (h : s.step task code choice = some s') : s'.AtRest ↔ s.RunsThrough code choice := by
  obtain ⟨p, hp, rfl⟩ := Option.map_eq_some_iff.mp h
  obtain ⟨ops, hgrips, hturn, hthrough⟩ := hI.turn hcode hp
  rw [hs.busy] at hturn
  rw [hthrough hs, ← (run_free hgrips s.db).2, ← hturn]
  constructor
  · intro hrest
    simpa only [Function.update_self] using hrest p.1
  · intro hfree i
    rcases eq_or_ne i p.1 with rfl | hi
    · simpa only [Function.update_self] using hfree
    · simpa only [Function.update_of_ne hi] using hs i

theorem Gripped.unblocked {s : Tasks ι α} (choice : Choice ι τ) (hI : Gripped s) (hs : s.AtRest) :
    s.Unblocked task code choice := by
  intro p hp
  obtain ⟨ops, hgrips, hturn, _⟩ := hI.turn hcode hp
  rw [hturn, hs.busy]
  exact (run_free hgrips s.db).1

theorem Gripped.starts_db {s s' : Tasks ι α} {t : τ} (hI : Gripped s) (hs : s.AtRest)
    (h : s.step task code (.starts t) = some s') (hthrough : s.RunsThrough code (.starts t)) :
    s'.db = finish s.db .closed (code t s.db) := by
  obtain ⟨p, hp, rfl⟩ := Option.map_eq_some_iff.mp h
  simp only [Tasks.turn] at hp
  split at hp
  · next hrest =>
    cases hp
    obtain ⟨hgrips, _⟩ := hI (task t)
    rw [hrest] at hgrips
    rw [hs.busy, show (s.tasks (task t)).session = .closed from hgrips]
    exact run_finish (hcode t s.db) hthrough s.db
  · cases hp

/-- Where every turn that waits grips the lock, no run suspends a task that holds the lock or
meets the lock of another exactly when its turns all run through. -/
theorem atRest_iff (db : α) (choices : List (Choice ι τ)) :
    AllStates (Tasks.step task code) Tasks.AtRest (.start db) choices ∧
        AllSteps (Tasks.step task code) (Tasks.Unblocked task code) (.start db) choices ↔
      AllSteps (Tasks.step task code) (Tasks.RunsThrough code) (.start db) choices := by
  have hstart : Gripped (.start db : Tasks ι α) := fun _ => ⟨rfl, fun _ => rfl⟩
  have hiff : AllStates (Tasks.step task code) Tasks.AtRest (.start db) choices ↔
      AllSteps (Tasks.step task code) (Tasks.RunsThrough code) (.start db) choices :=
    allStates_iff_allSteps (fun s choice s' hI h => Gripped.step hcode hI h)
      (fun s choice s' hI hs h => hI.atRest_iff hcode hs h) hstart (fun _ => rfl)
  rw [← hiff]
  exact and_iff_left_of_imp
    (allSteps_of_allStates (fun s choice s' hI h => Gripped.step hcode hI h)
      (fun s choice hI hs => hI.unblocked hcode choice hs) hstart)

end Tasks

end OneWriter
