import KalshiAgent.Config
import KalshiAgent.Lib.Binary64
import KalshiAgent.Storage.Models

/-! Realized PnL of a period, as the running total over all positions minus the daily snapshot
at or before the period's start. The total is an exact sum here, and a sum of floats in the
snapshot. -/

namespace KalshiAgent
open Binary64

def cumulativeRealizedPnl (db : Db) : ℚ := db.positions.sum Position.realizedPnlDollars

def latestSnapshot (db : Db) (cutoffDay : ℤ) : Option PnlDaily :=
  (db.pnlDaily.rows.filter (fun row => row.day ≤ cutoffDay)).maxOn? PnlDaily.day

def snapshotBaselineAtOrBefore (db : Db) (cutoff : Time) (tz : Tz) : ℚ :=
  match latestSnapshot db (tz.localDay cutoff) with
  | none => 0
  | some row => row.realizedPnl

def realizedPnlSince (db : Db) (cutoff : Time) (tz : Tz) : ℚ :=
  cumulativeRealizedPnl db - snapshotBaselineAtOrBefore db cutoff tz

/-- `daily_realized_pnl` of positions.py: a realized PnL of 0, the fees and the fill count of a day. -/
def dailyRealizedPnl (db : Db) (day : ℤ) (tz : Tz) : ℚ × ℚ × ℕ :=
  let startUtc := tz.midnight day
  let endUtc := tz.midnight (day + 1)
  let fills := db.fills.filter (fun f => startUtc ≤ f.createdAt ∧ f.createdAt < endUtc)
  (0, (fills.map (fun f => f.feeDollars.toDecimal)).sum, fills.length)

/-- `sum(p.realized_pnl_dollars for p in positions)`, over the floats of the column. -/
def floatRealizedTotal (python : Summation) (db : Db) : ℚ :=
  python.columnSum (db.positions.rows.map Position.realizedPnlDollars)

/-- What the additions of the floats lose of the running total. -/
def floatLoss (python : Summation) (db : Db) : ℚ :=
  cumulativeRealizedPnl db - floatRealizedTotal python db

def snapshotDailyPnl (python : Summation) (db : Db) (day : ℤ) (tz : Tz) : Db :=
  let (_, fees, tradeCount) := dailyRealizedPnl db day tz
  let realizedTotal := floatRealizedTotal python db
  { db with pnlDaily := db.pnlDaily.put ⟨day, realizedTotal, fees, tradeCount⟩ }

theorem realizedPnlSince_midnight (db : Db) (tz : Tz) (now : Time) :
    realizedPnlSince db (tz.midnight (tz.localDay now)) tz =
      cumulativeRealizedPnl db -
        ((latestSnapshot db (tz.localDay now)).map PnlDaily.realizedPnl).getD 0 := by
  unfold realizedPnlSince snapshotBaselineAtOrBefore
  rw [tz.localDay_midnight]
  cases latestSnapshot db (tz.localDay now) <;> rfl

theorem latestSnapshot_of_le {db : Db} {cutoffDay later : ℤ}
    (hdays : ∀ row ∈ db.pnlDaily.rows, row.day ≤ cutoffDay) (h : cutoffDay ≤ later) :
    latestSnapshot db later = latestSnapshot db cutoffDay := by
  have hall : ∀ c, cutoffDay ≤ c →
      db.pnlDaily.rows.filter (fun row => row.day ≤ c) = db.pnlDaily.rows := by
    intro c hc
    rw [List.filter_eq_self]
    intro row hrow
    exact decide_eq_true ((hdays row hrow).trans hc)
  rw [latestSnapshot, latestSnapshot, hall _ h, hall _ le_rfl]

theorem latestSnapshot_eq_some {db : Db} {row : PnlDaily} {cutoffDay : ℤ}
    (hrow : row ∈ db.pnlDaily.rows) (hday : row.day ≤ cutoffDay)
    (hlast : ∀ r ∈ db.pnlDaily.rows, r.day ≤ cutoffDay → r.day ≤ row.day) :
    latestSnapshot db cutoffDay = some row := by
  have hmem : row ∈ db.pnlDaily.rows.filter (fun r => r.day ≤ cutoffDay) := by
    rw [List.mem_filter]
    exact ⟨hrow, decide_eq_true hday⟩
  unfold latestSnapshot
  cases hmax : (db.pnlDaily.rows.filter (fun r => r.day ≤ cutoffDay)).maxOn? PnlDaily.day with
  | none =>
    have hsome := List.isSome_maxOn?_of_mem (f := PnlDaily.day) hmem
    rw [hmax] at hsome
    exact absurd hsome Bool.false_ne_true
  | some m =>
    have hle := List.le_apply_get_maxOn?_of_mem (f := PnlDaily.day) hmem
    simp only [hmax, Option.get_some] at hle
    obtain ⟨hm, hmday⟩ := List.mem_filter.mp (List.maxOn?_mem hmax)
    have hsame : m.day = row.day := le_antisymm (hlast m hm (of_decide_eq_true hmday)) hle
    have hfind := KeyedTable.find_of_mem hrow
    rw [← hsame, KeyedTable.find_of_mem hm] at hfind
    exact hfind

theorem latestSnapshot_put {db db' : Db} {row : PnlDaily} {cutoffDay : ℤ}
    (hdb' : db'.pnlDaily = db.pnlDaily.put row)
    (hdays : ∀ r ∈ db.pnlDaily.rows, r.day ≤ row.day) (h : row.day ≤ cutoffDay) :
    latestSnapshot db' cutoffDay = some row := by
  apply latestSnapshot_eq_some _ h
  · rw [hdb']
    intro r hr _
    rcases KeyedTable.mem_put.mp hr with rfl | ⟨hold, _⟩
    · exact le_rfl
    · exact hdays r hold
  · rw [hdb']
    exact KeyedTable.mem_put.mpr (.inl rfl)

end KalshiAgent
