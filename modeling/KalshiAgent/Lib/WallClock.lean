import Mathlib.Algebra.Order.Ring.Int
import Mathlib.Tactic.Linarith
import Mathlib.Tactic.Ring

/-! Wall-clock datetimes of a time zone. The zone gives each wall time its UTC offset, the fold
telling the two readings of a repeated time apart; a skipped time has an offset as well. -/

namespace WallClock

/-- A wall time in microseconds since the epoch of the wall clock, and its fold. -/
structure Datetime where
  wall : ℤ
  fold : Bool

def microsecondsPerDay : ℤ := 86400000000

structure ZoneInfo where
  utcoffset : Datetime → ℤ
  -- an offset is strictly between minus a day and a day
  utcoffset_mem : ∀ dt, -microsecondsPerDay < utcoffset dt ∧ utcoffset dt < microsecondsPerDay

namespace Datetime

def ofDate (day : ℤ) : Datetime := ⟨day * microsecondsPerDay, false⟩

def addDays (dt : Datetime) (n : ℤ) : Datetime := ⟨dt.wall + n * microsecondsPerDay, false⟩

theorem ofDate_addDays (day n : ℤ) : (ofDate day).addDays n = ofDate (day + n) := by
  unfold ofDate addDays
  rw [add_mul]

end Datetime

namespace ZoneInfo
variable (zone : ZoneInfo)

def toUtc (dt : Datetime) : ℤ := dt.wall - zone.utcoffset dt

/-- The instant at which the zone's wall clock shows 0:00 of the day, by its offset there. -/
def midnight (day : ℤ) : ℤ := zone.toUtc (.ofDate day)

theorem toUtc_nextMidnight (day : ℤ) :
    zone.toUtc ((Datetime.ofDate day).addDays 1) = zone.midnight (day + 1) := by
  rw [Datetime.ofDate_addDays]
  rfl

theorem toUtc_addDays_neg_le (dt : Datetime) {n : ℤ} (hn : 2 ≤ n) :
    zone.toUtc (dt.addDays (-n)) ≤ zone.toUtc dt := by
  have hearlier := (zone.utcoffset_mem (dt.addDays (-n))).1
  have hoffset := (zone.utcoffset_mem dt).2
  have hdays : 2 * microsecondsPerDay ≤ n * microsecondsPerDay :=
    mul_le_mul_of_nonneg_right hn (by decide)
  unfold toUtc
  have hwall : (dt.addDays (-n)).wall = dt.wall - n * microsecondsPerDay := by
    unfold Datetime.addDays
    ring
  linarith

end ZoneInfo
end WallClock
