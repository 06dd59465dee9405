import KalshiAgent.Lib.Tiling
import KalshiAgent.Lib.WallClock
import KalshiAgent.Safety.Pnl

/-! Local days tile time. A day runs from the midnight of its date to the wall time a day later, so
its end is the beginning of the next day whatever the zone's offsets are in between. -/

namespace KalshiAgent
open WallClock

def fillsOfDay (db : Db) (dayLocal : ℤ) (zone : ZoneInfo) : List Fill :=
  let midnightLocal := Datetime.ofDate dayLocal
  let nextMidnight := midnightLocal.addDays 1
  let startUtc := zone.toUtc midnightLocal
  let endUtc := zone.toUtc nextMidnight
  db.fills.filter (fun f => startUtc ≤ f.createdAt ∧ f.createdAt < endUtc)

/-- `daily_realized_pnl`, on the wall clock of its zone. -/
def zonedDailyRealizedPnl (db : Db) (dayLocal : ℤ) (zone : ZoneInfo) : ℚ × ℚ × ℕ :=
  let fills := fillsOfDay db dayLocal zone
  (0, (fills.map (fun f => f.feeDollars.toDecimal)).sum, fills.length)

theorem fillsOfDay_eq (db : Db) (dayLocal : ℤ) (zone : ZoneInfo) :
    fillsOfDay db dayLocal zone = Tiling.between Fill.createdAt db.fills (zone.midnight dayLocal)
      (zone.midnight (dayLocal + 1)) := by
  unfold fillsOfDay Tiling.between
  dsimp only
  rw [zone.toUtc_nextMidnight]
  rfl

theorem zonedDailyRealizedPnl_eq {tz : Tz} {zone : ZoneInfo} (h : tz.midnight = zone.midnight)
    (db : Db) (dayLocal : ℤ) :
    zonedDailyRealizedPnl db dayLocal zone = dailyRealizedPnl db dayLocal tz := by
  unfold zonedDailyRealizedPnl dailyRealizedPnl
  dsimp only
  rw [fillsOfDay_eq, h]
  rfl

/-- The `n` days from `first` on count each fill in one day, and no other day counts it. -/
structure DaysTile (db : Db) (zone : ZoneInfo) (first : ℤ) (n : ℕ) : Prop where
  once : ∀ f ∈ db.fills, ∃! day, f ∈ fillsOfDay db day zone
  within : ∀ f ∈ db.fills, ∀ day, f ∈ fillsOfDay db day zone → first ≤ day ∧ day < first + n
  fees : ((List.range n).map (fun i : ℕ => (zonedDailyRealizedPnl db (first + i) zone).2.1)).sum =
    (db.fills.map (fun f => f.feeDollars.toDecimal)).sum
  tradeCount : ((List.range n).map
    (fun i : ℕ => (zonedDailyRealizedPnl db (first + i) zone).2.2)).sum = db.fills.length

section Days
variable {db : Db} {zone : ZoneInfo} {first : ℤ} {n : ℕ}

theorem flatten_fillsOfDay_perm (hmono : Monotone zone.midnight)
    (hcover : ∀ f ∈ db.fills, zone.midnight first ≤ f.createdAt ∧
      f.createdAt < zone.midnight (first + n)) :
    ((List.range n).map (fun i : ℕ => fillsOfDay db (first + i) zone)).flatten.Perm db.fills := by
  have hslices := Tiling.flatten_slices_perm Fill.createdAt db.fills hmono first n
  rw [Tiling.between_eq_self hcover] at hslices
  simp only [fillsOfDay_eq]
  exact hslices

theorem sum_fees_eq (hflat : ((List.range n).map
      (fun i : ℕ => fillsOfDay db (first + i) zone)).flatten.Perm db.fills) :
    ((List.range n).map (fun i : ℕ => (zonedDailyRealizedPnl db (first + i) zone).2.1)).sum =
      (db.fills.map (fun f => f.feeDollars.toDecimal)).sum := by
  rw [← (hflat.map _).sum_eq, List.map_flatten, List.sum_flatten, List.map_map, List.map_map]
  rfl

theorem sum_tradeCount_eq (hflat : ((List.range n).map
      (fun i : ℕ => fillsOfDay db (first + i) zone)).flatten.Perm db.fills) :
    ((List.range n).map (fun i : ℕ => (zonedDailyRealizedPnl db (first + i) zone).2.2)).sum =
      db.fills.length := by
  rw [← hflat.length_eq, List.length_flatten, List.map_map]
  rfl

end Days

/-- In a zone whose midnights come one after the other, any days that cover the fills tile them. -/
theorem days_tile (zone : ZoneInfo) (hmidnight : ∀ day, zone.midnight day < zone.midnight (day + 1))
    (db : Db) (first : ℤ) (n : ℕ)
    (hcover : ∀ f ∈ db.fills, zone.midnight first ≤ f.createdAt ∧
      f.createdAt < zone.midnight (first + n)) :
    DaysTile db zone first n := by
  have hmono : Monotone zone.midnight := monotone_int_of_le_succ (fun day => (hmidnight day).le)
  have hunique : ∀ f d e, f ∈ fillsOfDay db d zone → f ∈ fillsOfDay db e zone → d = e := by
    intro f d e hd he
    rw [fillsOfDay_eq] at hd he
    exact Tiling.between_unique hmono hd he
  have hexists : ∀ f ∈ db.fills, ∃ day, (first ≤ day ∧ day < first + n) ∧
      f ∈ fillsOfDay db day zone := by
    intro f hf
    simp only [fillsOfDay_eq]
    exact Tiling.exists_slice hmono (Tiling.mem_between.mpr ⟨hf, hcover f hf⟩)
  have hflat := flatten_fillsOfDay_perm hmono hcover
  refine ⟨?_, ?_, sum_fees_eq hflat, sum_tradeCount_eq hflat⟩
  · intro f hf
    obtain ⟨day, _, hday⟩ := hexists f hf
    exact ⟨day, hday, fun e he => hunique f e day he hday⟩
  · intro f hf e he
    obtain ⟨day, hrange, hday⟩ := hexists f hf
    rw [hunique f e day he hday]
    exact hrange

def fallBack : ZoneInfo where
  utcoffset dt :=
    if dt.wall < 90000000000 ∨ (dt.wall < 93600000000 ∧ dt.fold = false) then -14400000000
    else -18000000000
  utcoffset_mem dt := by
    unfold microsecondsPerDay
    split_ifs <;> decide

theorem fallBack_midnight_lt (day : ℤ) : fallBack.midnight day < fallBack.midnight (day + 1) := by
  simp only [ZoneInfo.midnight, ZoneInfo.toUtc, Datetime.ofDate, fallBack, microsecondsPerDay]
  split_ifs <;> omega

def fallBackFills : Db :=
  { Db.empty with
    fills := [⟨105000000000, "o1", "FOO", .yes, 1, ⟨5000⟩, ⟨175⟩, true⟩,
      ⟨108600000000, "o2", "FOO", .yes, 1, ⟨5000⟩, ⟨175⟩, true⟩,
      ⟨190800000000, "o3", "FOO", .yes, 1, ⟨5000⟩, ⟨175⟩, true⟩] }

theorem days_tile_fallBack : DaysTile fallBackFills fallBack 1 2 :=
  days_tile fallBack fallBack_midnight_lt fallBackFills 1 2 (by decide +kernel)

end KalshiAgent
