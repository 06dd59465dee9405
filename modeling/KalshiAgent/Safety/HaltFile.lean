import KalshiAgent.Lib.Execution
import KalshiAgent.Llm.Json
import KalshiAgent.Safety.KillSwitch

/-! The kill switch as a file. `engage` writes a temporary file and renames it over HALT; the
process may die between any two of these steps, and other programs write and remove HALT. -/

namespace KalshiAgent
open Execution

inductive FileContent
  | text (chars : List Char)
  | binary
  deriving DecidableEq

structure JsonText where
  dumps : Json → List Char
  loads : List Char → Except PyError Json

structure HaltBody where
  reason : Json
  source : String
  timestamp : String
  payload : List (String × Json)

def HaltBody.json (body : HaltBody) : Json :=
  .obj [("reason", body.reason), ("source", .str body.source),
    ("timestamp", .str body.timestamp), ("payload", .obj body.payload)]

structure HaltFiles where
  halt : Option FileContent
  tmp : Option FileContent
  deriving DecidableEq

namespace HaltFiles

def isEngaged (files : HaltFiles) : Bool := files.halt.isSome

/-- `reason()`. A file that is not UTF-8 raises past its `except`. -/
def reason (codec : JsonText) (files : HaltFiles) : Except PyError (Option Json) :=
  match files.halt with
  | none => .ok none
  | some .binary => .error .valueError
  | some (.text chars) =>
    match codec.loads chars with
    | .ok value => .ok (some value)
    | .error .jsonDecodeError =>
      .ok (some (.obj [("reason", .str "manual"), ("timestamp", .null)]))
    | .error e => .error e

def engage (codec : JsonText) (files : HaltFiles) (body : HaltBody) : HaltFiles :=
  if files.isEngaged then files  -- kill_switch_already_engaged
  else ⟨some (.text (codec.dumps body.json)), none⟩

def disengage (files : HaltFiles) : HaltFiles × Bool :=
  if files.isEngaged then ({ files with halt := none }, true) else (files, false)

end HaltFiles

/-- The process at work on the files: `writing` holds the body and what of its text is not yet in
the temporary file. Beside it stand the bodies it has begun to write and the contents that others
have put in HALT. -/
structure HaltDisk where
  files : HaltFiles
  writing : Option (HaltBody × List Char)
  begun : List HaltBody
  others : List FileContent

inductive HaltDiskStep
  | engage (body : HaltBody)
  -- the next characters reach the temporary file
  | write (n : ℕ)
  | replace
  -- a write raises, or the process dies and the next one starts
  | crash
  | disengage
  -- another program: `touch`, halt.sh or an editor, at any point of its own writes
  | put (content : FileContent)
  -- `rm`, or resume.sh
  | remove

def HaltDisk.start (files : HaltFiles) : HaltDisk := ⟨files, none, [], files.halt.toList⟩

variable (codec : JsonText)

def haltDiskStep (s : HaltDisk) : HaltDiskStep → Option HaltDisk
  | .engage body =>
    if s.writing.isSome then none
    else if s.files.isEngaged then some s
    else some { s with
      files := { s.files with tmp := some (.text []) }
      writing := some (body, codec.dumps body.json)
      begun := body :: s.begun }
  | .write n =>
    match s.writing, s.files.tmp with
    | some (body, left), some (.text written) =>
      some { s with
        files := { s.files with tmp := some (.text (written ++ left.take n)) }
        writing := some (body, left.drop n) }
    | _, _ => none
  | .replace =>
    match s.writing with
    | some (_, []) => some { s with files := ⟨s.files.tmp, none⟩, writing := none }
    | _ => none
  | .crash => some { s with writing := none }
  | .disengage => if s.writing.isSome then none else some { s with files := s.files.disengage.1 }
  | .put content =>
    some { s with files := { s.files with halt := some content }, others := content :: s.others }
  | .remove => some { s with files := { s.files with halt := none } }

variable {codec}

/-- HALT holds what another program has put there, or the whole text of a body. -/
def HaltDisk.Whole (codec : JsonText) (s : HaltDisk) : Prop :=
  ∀ content, s.files.halt = some content →
    content ∈ s.others ∨ ∃ body ∈ s.begun, content = .text (codec.dumps body.json)

/-- Only `disengage` and a removal clear the switch, and an engagement leaves one that stands. -/
def HaltDisk.Stands (codec : JsonText) (s : HaltDisk) (step : HaltDiskStep) : Prop :=
  s.files.isEngaged = true → ∀ s', haltDiskStep codec s step = some s' →
    (step ≠ .disengage → step ≠ .remove → s'.files.isEngaged = true) ∧
      ∀ body, step = .engage body → s' = s

structure HaltDiskInvariant (codec : JsonText) (s : HaltDisk) : Prop where
  whole : s.Whole codec
  writing : ∀ body left, s.writing = some (body, left) → body ∈ s.begun ∧
    ∃ written, s.files.tmp = some (.text written) ∧ written ++ left = codec.dumps body.json

variable {s s' : HaltDisk}

theorem HaltDiskInvariant.start (codec : JsonText) (files : HaltFiles) :
    HaltDiskInvariant codec (.start files) where
  whole _ h := .inl (Option.mem_toList.mpr h)
  writing _ _ h := nomatch h

theorem HaltDiskInvariant.engage (h : HaltDiskInvariant codec s) (body : HaltBody) :
    HaltDiskInvariant codec { s with
      files := { s.files with tmp := some (.text []) }
      writing := some (body, codec.dumps body.json)
      begun := body :: s.begun } where
  whole content hcontent := by
    rcases h.whole content hcontent with hother | ⟨old, hold, htext⟩
    · exact .inl hother
    · exact .inr ⟨old, List.mem_cons_of_mem _ hold, htext⟩
  writing begun left hwriting := by
    cases hwriting
    exact ⟨List.mem_cons_self, [], rfl, rfl⟩

theorem HaltDiskInvariant.write (h : HaltDiskInvariant codec s) {body : HaltBody}
    {written left : List Char} (n : ℕ) (hwriting : s.writing = some (body, left))
    (htmp : s.files.tmp = some (.text written)) :
    HaltDiskInvariant codec { s with
      files := { s.files with tmp := some (.text (written ++ left.take n)) }
      writing := some (body, left.drop n) } where
  whole := h.whole
  writing begun rest hrest := by
    cases hrest
    obtain ⟨hbegun, before, hbefore, htext⟩ := h.writing body left hwriting
    cases htmp.symm.trans hbefore
    refine ⟨hbegun, written ++ left.take n, rfl, ?_⟩
    rw [List.append_assoc, List.take_append_drop, htext]

theorem HaltDiskInvariant.replace (h : HaltDiskInvariant codec s) {body : HaltBody}
    (hwriting : s.writing = some (body, [])) :
    HaltDiskInvariant codec { s with files := ⟨s.files.tmp, none⟩, writing := none } where
  whole content hcontent := by
    obtain ⟨hbegun, written, htmp, htext⟩ := h.writing body [] hwriting
    have hsame : content = .text written := Option.some.inj (hcontent.symm.trans htmp)
    rw [List.append_nil] at htext
    exact .inr ⟨body, hbegun, by rw [hsame, htext]⟩
  writing _ _ hnone := nomatch hnone

theorem HaltDiskInvariant.cleared (h : HaltDiskInvariant codec s) :
    HaltDiskInvariant codec { s with files := { s.files with halt := none } } where
  whole _ hnone := nomatch hnone
  writing := h.writing

theorem HaltDiskInvariant.step (h : HaltDiskInvariant codec s) {step : HaltDiskStep}
    (hstep : haltDiskStep codec s step = some s') : HaltDiskInvariant codec s' := by
  cases step with
  | engage body =>
    rw [haltDiskStep] at hstep
    split_ifs at hstep
    · cases hstep
      exact h
    · cases hstep
      exact h.engage body
  | write n =>
    rw [haltDiskStep] at hstep
    split at hstep
    · cases hstep
      exact h.write n ‹_› ‹_›
    · cases hstep
  | replace =>
    rw [haltDiskStep] at hstep
    split at hstep
    · cases hstep
      exact h.replace ‹_›
    · cases hstep
  | crash =>
    cases hstep
    exact ⟨h.whole, fun _ _ hnone => nomatch hnone⟩
  | disengage =>
    rw [haltDiskStep, HaltFiles.disengage] at hstep
    split_ifs at hstep
    · cases hstep
      exact h.cleared
    · cases hstep
      exact h
  | put content =>
    cases hstep
    refine ⟨fun now hnow => ?_, h.writing⟩
    obtain rfl := Option.some.inj hnow
    exact .inl List.mem_cons_self
  | remove =>
    cases hstep
    exact h.cleared

theorem HaltDiskInvariant.replaced (h : HaltDiskInvariant codec s) {body : HaltBody}
    (hwriting : s.writing = some (body, [])) : (⟨s.files.tmp, none⟩ : HaltFiles).isEngaged = true := by
  obtain ⟨_, written, htmp, _⟩ := h.writing body [] hwriting
  rw [HaltFiles.isEngaged, htmp]
  rfl

theorem HaltDiskInvariant.stands (h : HaltDiskInvariant codec s) (step : HaltDiskStep) :
    s.Stands codec step := by
  intro hengaged s' hstep
  cases step with
  | engage body =>
    rw [haltDiskStep, if_pos hengaged] at hstep
    split_ifs at hstep
    cases hstep
    exact ⟨fun _ _ => hengaged, fun _ _ => rfl⟩
  | write n =>
    rw [haltDiskStep] at hstep
    split at hstep
    · cases hstep
      exact ⟨fun _ _ => hengaged, fun _ h => nomatch h⟩
    · cases hstep
  | replace =>
    rw [haltDiskStep] at hstep
    split at hstep
    · cases hstep
      exact ⟨fun _ _ => h.replaced ‹_›, fun _ h => nomatch h⟩
    · cases hstep
  | crash =>
    cases hstep
    exact ⟨fun _ _ => hengaged, fun _ h => nomatch h⟩
  | disengage => exact ⟨fun h => absurd rfl h, fun _ h => nomatch h⟩
  | put content =>
    cases hstep
    exact ⟨fun _ _ => rfl, fun _ h => nomatch h⟩
  | remove => exact ⟨fun _ h => absurd rfl h, fun _ h => nomatch h⟩

/-- Whatever dies or interferes at whatever point, HALT is never torn by the agent, and it stays
until somebody clears it. -/
theorem haltFile_whole (codec : JsonText) (files : HaltFiles) (steps : List HaltDiskStep) :
    AllStates (haltDiskStep codec) (HaltDisk.Whole codec) (.start files) steps ∧
      AllSteps (haltDiskStep codec) (HaltDisk.Stands codec) (.start files) steps := by
  have hstart := HaltDiskInvariant.start codec files
  constructor
  · exact allStates_of_invariant (fun _ _ _ h hstep => h.step hstep) (fun _ h => h.whole) hstart steps
  · exact allSteps_of_invariant (fun _ _ _ h hstep => h.step hstep) (fun _ l _ h _ => h.stands l)
      hstart steps

def HaltDiskStep.onSwitch (kill : KillSwitch) : HaltDiskStep → KillSwitch
  | .replace => kill.engage (.manual "") ""
  | .put _ => kill.engage (.manual "") ""
  | .disengage => kill.disengage.1
  | .remove => kill.disengage.1
  | .engage _ | .write _ | .crash => kill

theorem HaltDiskInvariant.isEngaged_onSwitch (h : HaltDiskInvariant codec s) {step : HaltDiskStep}
    (hstep : haltDiskStep codec s step = some s') {kill : KillSwitch}
    (hkill : kill.isEngaged = s.files.isEngaged) :
    (step.onSwitch kill).isEngaged = s'.files.isEngaged := by
  cases step with
  | engage body =>
    rw [haltDiskStep] at hstep
    split_ifs at hstep <;> cases hstep <;> exact hkill
  | write n =>
    rw [haltDiskStep] at hstep
    split at hstep
    · cases hstep
      exact hkill
    · cases hstep
  | replace =>
    rw [haltDiskStep] at hstep
    split at hstep
    · cases hstep
      exact (KillSwitch.isEngaged_engage _ _ _).trans (h.replaced ‹_›).symm
    · cases hstep
  | crash =>
    cases hstep
    exact hkill
  | disengage =>
    rw [haltDiskStep] at hstep
    split_ifs at hstep
    cases hstep
    rw [HaltFiles.disengage]
    split_ifs with hengaged
    · rfl
    · exact (KillSwitch.isEngaged_disengage _).trans (Bool.eq_false_iff.mpr hengaged).symm
  | put content =>
    cases hstep
    exact KillSwitch.isEngaged_engage _ _ _
  | remove =>
    cases hstep
    exact KillSwitch.isEngaged_disengage _

/-- The files of any run engage and disengage with the switch of the rest of the model. -/
theorem haltFile_refines (codec : JsonText) {files : HaltFiles} {kill : KillSwitch}
    (hkill : kill.isEngaged = files.isEngaged) {steps : List HaltDiskStep} {t : HaltDisk}
    (hrun : exec (haltDiskStep codec) (.start files) steps = some t) :
    (steps.foldl HaltDiskStep.onSwitch kill).isEngaged = t.files.isEngaged := by
  have hstart := HaltDiskInvariant.start codec files
  have hfiles : kill.isEngaged = (HaltDisk.start files).files.isEngaged := hkill
  clear hkill
  generalize HaltDisk.start files = s at hstart hfiles hrun
  induction steps generalizing s kill with
  | nil =>
    cases hrun
    exact hfiles
  | cons step steps ih =>
    obtain ⟨s', hstep, hrest⟩ := exec_cons_eq_some.mp hrun
    have hnext := hstart.isEngaged_onSwitch hstep hfiles
    exact ih s' (hstart.step hstep) hnext hrest

end KalshiAgent
