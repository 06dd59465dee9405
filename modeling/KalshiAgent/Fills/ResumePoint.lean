import KalshiAgent.Fills.Ingestor

/-! Where polling resumes after a restart. The database keeps the UTC fields of a fill's time
and gives them back without a zone, and `timestamp()` reads them on the host's clock. -/

namespace KalshiAgent

/-- What `time.localtime` shows: the host's wall clock at an instant, both in seconds. -/
structure HostZone where
  localtime : ℤ → ℤ

namespace HostZone

def fixed (offset : ℤ) : HostZone := ⟨fun u => u + offset⟩

/-- `timestamp()` of naive whole seconds with fold 0: an instant at which the host's clock shows
`t`, the earlier of two, or the later guess where the clock skips `t`. -/
def mktime (host : HostZone) (t : ℤ) : ℤ :=
  let a := host.localtime t - t
  let u1 := t - a
  let t1 := host.localtime u1
  let dayBefore := u1 - 86400
  let b := if t1 = t then host.localtime dayBefore - dayBefore else t1 - u1
  if t1 = t ∧ a = b then u1
  else
    let u2 := t - b
    if host.localtime u2 = t then u2
    else if t1 = t then u1
    else max u1 u2

def naiveTimestamp (host : HostZone) (time : Time) : Time :=
  host.mktime (time / 1000000) * 1000000 + time % 1000000

/-- The UTC offset that `timestamp()` takes the wall clock of a time to have. -/
def offsetAt (host : HostZone) (time : Time) : ℤ :=
  time / 1000000 - host.mktime (time / 1000000)

theorem mktime_fixed (offset t : ℤ) : (fixed offset).mktime t = t - offset := by
  simp [mktime, fixed]

/-- The chosen instant shows the wall clock, unless neither of two guesses does. -/
theorem localtime_mktime (host : HostZone) (t : ℤ) :
    host.localtime (host.mktime t) = t ∨
      ∃ u1 u2, host.mktime t = max u1 u2 ∧ host.localtime u1 ≠ t ∧ host.localtime u2 ≠ t := by
  unfold mktime
  dsimp only
  split_ifs with hfirst hdup hsecond <;> grind

end HostZone

theorem naiveTimestamp_eq (host : HostZone) (time : Time) :
    host.naiveTimestamp time = time - host.offsetAt time * 1000000 := by
  have hsplit := Int.mul_ediv_add_emod time 1000000
  rw [HostZone.naiveTimestamp, HostZone.offsetAt]
  linarith

/-- Polling resumes no later than at the latest stored fill. -/
def ResumesInTime (env : IngestEnv) (db : Db) : Prop :=
  ∀ latest, db.fills.maxOn? Fill.createdAt = some latest →
    loadHighWater env db ≤ epochSecond latest.createdAt

theorem epochSecond_eq (time : ℤ) :
    epochSecond time = if 0 ≤ time then time / 1000000 else -(-time / 1000000) := by
  unfold epochSecond
  split_ifs with htime
  · exact Int.tdiv_eq_ediv_of_nonneg htime
  · rw [← Int.tdiv_eq_ediv_of_nonneg (by omega), Int.neg_tdiv, neg_neg]

/-- Seconds are cut off toward zero, so one second more is not seen just before 1970. -/
theorem epochSecond_sub_le_iff (time offset : ℤ) :
    epochSecond (time - offset * 1000000) ≤ epochSecond time ↔
      0 ≤ offset ∨ (offset = -1 ∧ -1000000 < time ∧ time < 0) := by
  rw [epochSecond_eq, epochSecond_eq]
  split_ifs <;> omega

/-- The resume point is right exactly where the host's clock, when it shows the latest fill's UTC
time, is not behind UTC. -/
theorem resumesInTime_iff (env : IngestEnv) (host : HostZone) (db : Db) :
    ResumesInTime { env with naiveTimestamp := host.naiveTimestamp } db ↔
      ∀ latest, db.fills.maxOn? Fill.createdAt = some latest →
        0 ≤ host.offsetAt latest.createdAt ∨
          (host.offsetAt latest.createdAt = -1 ∧ -1000000 < latest.createdAt ∧
            latest.createdAt < 0) := by
  apply forall₂_congr
  intro latest hlatest
  rw [loadHighWater, hlatest]
  dsimp only
  rw [naiveTimestamp_eq, epochSecond_sub_le_iff]

/-- On a host at UTC-5 the poll after a restart resumes five hours after the latest fill. -/
theorem not_resumesInTime :
    ¬ ResumesInTime ⟨7 / 100, false, (HostZone.fixed (-18000)).naiveTimestamp⟩
      { Db.empty with fills :=
          [⟨1700000000000000, "o1", "FOO", .yes, 10, ⟨5000⟩, ⟨2000⟩, true⟩] } := by
  intro h
  have hresume := h _ rfl
  revert hresume
  decide +kernel

end KalshiAgent
