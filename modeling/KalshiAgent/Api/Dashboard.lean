import KalshiAgent.Api.Observer
import KalshiAgent.Lib.Latest
import KalshiAgent.Safety.RiskMonitor

/-! The dashboard's figure of today. It shows the snapshot of today itself, or the running total
where none of the rows it reads is of today; every other reader subtracts the snapshot. -/

namespace KalshiAgent
open Binary64

def dashboardDaily (db : Db) : List PnlDaily := (db.pnlDaily.latest 30).rows.reverse

def dashboardTodayPnl (python : Summation) (db : Db) (tz : Tz) (now : Time) : ℚ :=
  let daily := dashboardDaily db
  let realizedTotal := floatRealizedTotal python db
  let todayLocal := tz.localDay now
  if daily ≠ [] then
    ((daily.find? (fun p => p.day = todayLocal)).map PnlDaily.realizedPnl).getD realizedTotal
  else realizedTotal

/-- The dashboard shows what the observer reports for today and what the daily-loss stop reads. -/
structure TodayAgrees (python : Summation) (db : Db) (tz : Tz) (now : Time) : Prop where
  since : dashboardTodayPnl python db tz now = realizedPnlSince db (tz.midnight (tz.localDay now)) tz
  observer : dashboardTodayPnl python db tz now = (pnl db tz now .today).realizedPnlDollars
  riskMonitor : ∀ monotonic,
    dashboardTodayPnl python db tz now = dailyRealizedPnlDollars tz db ⟨now, monotonic⟩

/-- The row of today, where fewer than 30 rows are of later days. -/
def chartedToday (db : Db) (today : ℤ) : Option PnlDaily :=
  if (db.pnlDaily.rows.filter (fun row => today < row.day)).length < 30 then db.pnlDaily.find today
  else none

/-- With a charted row of today the running total is twice that row's; without one the latest
snapshot up to today is what the float addition loses, which is 0 where it is exact. -/
def TotalsAgree (python : Summation) (db : Db) (today : ℤ) : Prop :=
  match chartedToday db today with
  | some row => cumulativeRealizedPnl db = 2 * row.realizedPnl
  | none => ((latestSnapshot db today).map PnlDaily.realizedPnl).getD 0 = floatLoss python db

theorem find?_dashboardDaily (db : Db) (today : ℤ) :
    (dashboardDaily db).find? (fun p => p.day = today) = chartedToday db today := by
  have hreverse : (dashboardDaily db).Perm (db.pnlDaily.latest 30).rows := List.reverse_perm _
  have hnodup := (hreverse.map PnlDaily.day).nodup_iff.mpr (db.pnlDaily.latest 30).nodup
  have hdaily : KeyedTable.find ⟨dashboardDaily db, hnodup⟩ today = (db.pnlDaily.latest 30).find today :=
    KeyedTable.find_congr_of_perm hreverse today
  exact hdaily.trans (KeyedTable.find_latest db.pnlDaily 30 today)

theorem dashboardTodayPnl_eq (python : Summation) (db : Db) (tz : Tz) (now : Time) :
    dashboardTodayPnl python db tz now =
      ((chartedToday db (tz.localDay now)).map PnlDaily.realizedPnl).getD
        (floatRealizedTotal python db) := by
  rw [← find?_dashboardDaily]
  unfold dashboardTodayPnl
  dsimp only
  split_ifs with hdaily
  · rfl
  · rw [not_not.mp hdaily]
    rfl

theorem latestSnapshot_of_chartedToday {db : Db} {today : ℤ} {row : PnlDaily}
    (h : chartedToday db today = some row) : latestSnapshot db today = some row := by
  unfold chartedToday at h
  split_ifs at h
  have hday := KeyedTable.find_key h
  exact latestSnapshot_eq_some (KeyedTable.mem_of_find h) hday.le (fun r _ hr => hr.trans hday.ge)

theorem todayAgrees_iff_since (python : Summation) (db : Db) (tz : Tz) (now : Time) :
    TodayAgrees python db tz now ↔
      dashboardTodayPnl python db tz now = realizedPnlSince db (tz.midnight (tz.localDay now)) tz :=
  ⟨fun h => h.since, fun h => ⟨h, h, fun _ => h⟩⟩

/-- In every state of the database and at every time the dashboard's figure of today is the
observer's exactly when the totals happen to agree. -/
theorem todayAgrees_iff (python : Summation) (db : Db) (tz : Tz) (now : Time) :
    TodayAgrees python db tz now ↔ TotalsAgree python db (tz.localDay now) := by
  rw [todayAgrees_iff_since, dashboardTodayPnl_eq, realizedPnlSince_midnight, TotalsAgree]
  cases hcharted : chartedToday db (tz.localDay now) with
  | some row =>
    rw [latestSnapshot_of_chartedToday hcharted]
    dsimp only [Option.map_some, Option.getD_some]
    constructor
    · intro h
      linarith
    · intro h
      linarith
  | none =>
    dsimp only [Option.map_none, Option.getD_none]
    rw [floatLoss]
    constructor
    · intro h
      linarith
    · intro h
      linarith

def fiveToday : Db :=
  { Db.empty with
    positions := .ofList [⟨"FOO", .yes, 0, .zero, 15⟩]
    pnlDaily := .ofList [⟨0, 10, 0, 0⟩] }

def twoProfits : Db :=
  { Db.empty with
    positions := .ofList [⟨"FOO", .yes, 0, .zero, 1 / 10⟩, ⟨"BAR", .yes, 0, .zero, 7 / 10⟩] }

theorem not_todayAgrees_of_figures {python : Summation} {db : Db} {tz : Tz} {now : Time} {x y : ℚ}
    (hfigures : dashboardTodayPnl python db tz now = x ∧
      (pnl db tz now .today).realizedPnlDollars = y) (hne : x ≠ y) :
    ¬ TodayAgrees python db tz now :=
  fun h => hne (hfigures.1.symm.trans (h.observer.trans hfigures.2))

/-- The dashboard shows the ten dollars of the snapshot where the observer has the five of today, and
0.7999999999999999 where it has 0.8. -/
theorem not_todayAgrees :
    ¬ TodayAgrees .naive fiveToday (.fixed 0) 1 ∧ ¬ TodayAgrees .naive twoProfits (.fixed 0) 1 := by
  have hsnapshot : dashboardTodayPnl .naive fiveToday (.fixed 0) 1 = 10 ∧
      (pnl fiveToday (.fixed 0) 1 .today).realizedPnlDollars = 5 := by
    decide +kernel
  have hfloats : dashboardTodayPnl .naive twoProfits (.fixed 0) 1 =
      7999999999999999 / 10000000000000000 ∧
      (pnl twoProfits (.fixed 0) 1 .today).realizedPnlDollars = 4 / 5 := by
    decide +kernel
  exact ⟨not_todayAgrees_of_figures hsnapshot (by norm_num),
    not_todayAgrees_of_figures hfloats (by norm_num)⟩

end KalshiAgent
