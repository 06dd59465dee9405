import KalshiAgent.Api.Observer
import KalshiAgent.Lib.WallClock
import KalshiAgent.Positions.DailyBooks

/-! The period figures: the observer's and the summaries'. Fees and trade count are cut at the
instant of the cutoff, the realized PnL at the snapshot of the local day it falls in, and what the
float addition of that snapshot has lost stays in it. -/

namespace KalshiAgent
open Binary64 Execution WallClock

inductive SummaryKind
  | eod
  | weekly

/-- `zone` is the clock that `now_local` was read from, `tz` its days. -/
def SummaryKind.cutoff (tz : Tz) (zone : ZoneInfo) (nowLocal : Datetime) : SummaryKind → Time
  | .eod => tz.midnight (tz.localDay (zone.toUtc nowLocal))
  | .weekly => zone.toUtc (nowLocal.addDays (-7))

structure Summary where
  kind : SummaryKind
  fills : ℕ
  fees : ℚ
  netPnl : ℚ
  openPositions : ℕ

def postSummary (db : Db) (tz : Tz) (zone : ZoneInfo) (nowLocal : Datetime) (kind : SummaryKind) :
    Summary :=
  let cutoff := kind.cutoff tz zone nowLocal
  let fills := fillsSince db cutoff
  { kind := kind
    fills := fills.length
    fees := (fills.map (fun f => f.feeDollars.toDecimal)).sum
    netPnl := realizedPnlSince db cutoff tz
    openPositions := (db.positions.rows.filter (fun p => p.count ≠ 0)).length }

namespace BooksState

def counted (s : BooksState) (cutoff : Time) : List Booking :=
  s.booked.filter (fun b => cutoff ≤ b.row.createdAt)

def sinceSnapshot (tz : Tz) (s : BooksState) (day : ℤ) : List Booking :=
  s.booked.filter (fun b => !b.snapshotted tz day)

end BooksState

structure CutAt (tz : Tz) (s : BooksState) (cutoff : Time) (fees : ℚ) (tradeCount : ℕ)
    (realized : ℚ) : Prop where
  fees_eq : fees = ((s.counted cutoff).map (fun b => b.row.feeDollars.toDecimal)).sum
  tradeCount_eq : tradeCount = (s.counted cutoff).length
  realized_eq : realized =
    deltas (s.sinceSnapshot tz (tz.localDay cutoff)) + s.lost (tz.localDay cutoff)

/-- Every report of a state, and today's where the snapshot came ahead of the day's fills. -/
structure PeriodFigures (tz : Tz) (zone : ZoneInfo) (s : BooksState) : Prop where
  observer : ∀ period, period ≠ .all → CutAt tz s (period.cutoff tz s.now)
    (pnl s.db tz s.now period).feesDollars (pnl s.db tz s.now period).tradeCount
    (pnl s.db tz s.now period).realizedPnlDollars
  summary : ∀ kind nowLocal, zone.toUtc nowLocal = s.now →
    CutAt tz s (kind.cutoff tz zone nowLocal) (postSummary s.db tz zone nowLocal kind).fees
      (postSummary s.db tz zone nowLocal kind).fills (postSummary s.db tz zone nowLocal kind).netPnl
  today : (∀ b ∈ s.booked, b.day tz = tz.localDay s.now → b.early = false) →
    (pnl s.db tz s.now .today).realizedPnlDollars =
      deltas (s.counted (PnlPeriod.today.cutoff tz s.now)) + s.lost (tz.localDay s.now)

section State
variable {tz : Tz} {start : Time} {s : BooksState}

theorem deltas_filter_not (p : Booking → Bool) (bookings : List Booking) :
    deltas (bookings.filter (fun b => !p b)) = deltas bookings - deltas (bookings.filter p) := by
  have hsplit := List.filter_append_perm p bookings
  have hsum : deltas (bookings.filter p ++ bookings.filter (fun b => !p b)) = deltas bookings :=
    (hsplit.map Booking.realized).sum_eq
  rw [← hsum, deltas_append, add_sub_cancel_left]

theorem realizedPnlSince_eq (hI : BooksInvariant tz start s) {cutoff : Time}
    (hcutoff : cutoff ≤ s.now) :
    realizedPnlSince s.db cutoff tz =
      deltas (s.sinceSnapshot tz (tz.localDay cutoff)) + s.lost (tz.localDay cutoff) := by
  have hday := tz.localDay_midnight cutoff
  unfold realizedPnlSince snapshotBaselineAtOrBefore BooksState.sinceSnapshot
  rw [hI.cumulative, deltas_filter_not]
  rcases lt_or_ge start (tz.midnight (tz.localDay cutoff)) with hbegun | hfirst
  · have htaken := hI.snapshots _ hday hbegun ((tz.midnight_le cutoff).trans hcutoff)
    obtain ⟨row, hrow⟩ := Option.ne_none_iff_exists'.mp htaken
    have hkey := KeyedTable.find_key hrow
    have hmem := KeyedTable.mem_of_find hrow
    rw [latestSnapshot_eq_some hmem hkey.le (fun r _ hr => hr.trans hkey.ge)]
    have hbaseline := hI.baseline row hmem
    rw [hkey] at hbaseline
    dsimp only
    linarith
  · -- the run began on the cutoff's day or later, with no snapshot to subtract
    have hle : tz.localDay cutoff ≤ tz.localDay start := hday ▸ tz.localDay_mono hfirst
    have hnoRow : latestSnapshot s.db (tz.localDay cutoff) = none := by
      have hnone : s.db.pnlDaily.rows.filter (fun row => row.day ≤ tz.localDay cutoff) = [] := by
        apply List.filter_eq_nil_iff.mpr
        intro row hrow htrue
        exact absurd (hI.days row hrow).1 (not_lt.mpr ((of_decide_eq_true htrue).trans hle))
      unfold latestSnapshot
      rw [hnone]
      rfl
    have hall : s.booked.filter (Booking.snapshotted tz (tz.localDay cutoff)) = [] := by
      apply List.filter_eq_nil_iff.mpr
      intro b hb htrue
      rcases of_decide_eq_true htrue with hbefore | ⟨hsame, hearly⟩
      · have hstart : tz.localDay start ≤ b.day tz := tz.localDay_mono (hI.past b hb).1
        exact absurd (hbefore.trans_le hle) (not_lt.mpr hstart)
      · exact absurd (hI.early b hb hearly) (not_lt.mpr (hsame.trans_le hle))
    rw [hnoRow, hall, hI.lost _ hle]
    simp [deltas]

theorem fillsSince_eq (hI : BooksInvariant tz start s) (cutoff : Time) :
    fillsSince s.db cutoff = (s.counted cutoff).map Booking.row := by
  unfold fillsSince BooksState.counted
  rw [hI.fills, List.filter_map]
  rfl

theorem cutAt (hI : BooksInvariant tz start s) {cutoff : Time} (hcutoff : cutoff ≤ s.now) :
    CutAt tz s cutoff ((fillsSince s.db cutoff).map (fun f => f.feeDollars.toDecimal)).sum
      (fillsSince s.db cutoff).length (realizedPnlSince s.db cutoff tz) := by
  refine ⟨?_, ?_, realizedPnlSince_eq hI hcutoff⟩
  · rw [fillsSince_eq hI, List.map_map]
    rfl
  · rw [fillsSince_eq hI, List.length_map]

theorem midnight_le_iff {t u : Time} :
    tz.midnight (tz.localDay t) ≤ u ↔ tz.localDay t ≤ tz.localDay u := by
  constructor
  · intro h
    have hday := tz.localDay_mono h
    rwa [tz.localDay_midnight] at hday
  · intro h
    by_contra hlt
    have hle := tz.localDay_mono (not_le.mp hlt).le
    rw [tz.localDay_midnight] at hle
    exact hlt (le_antisymm h hle ▸ tz.midnight_le u)

theorem sinceSnapshot_today (hnone : ∀ b ∈ s.booked, b.day tz = tz.localDay s.now → b.early = false) :
    s.sinceSnapshot tz (tz.localDay s.now) = s.counted (tz.midnight (tz.localDay s.now)) := by
  apply List.filter_congr
  intro b hb
  have hafter : b.snapshotted tz (tz.localDay s.now) = true ↔ b.day tz < tz.localDay s.now := by
    unfold Booking.snapshotted
    rw [decide_eq_true_iff]
    refine or_iff_left ?_
    rintro ⟨hday, hearly⟩
    exact Bool.false_ne_true ((hnone b hb hday).symm.trans hearly)
  rw [Bool.eq_iff_iff, Bool.not_eq_true', Bool.eq_false_iff, ne_eq, hafter, decide_eq_true_iff,
    midnight_le_iff, not_lt]
  rfl

end State

theorem PnlPeriod.cutoff_le (tz : Tz) (now : Time) {period : PnlPeriod} (h : period ≠ .all) :
    period.cutoff tz now ≤ now := by
  cases period with
  | today => exact tz.midnight_le now
  | week => exact Int.sub_le_self now (by decide)
  | month => exact Int.sub_le_self now (by decide)
  | all => exact absurd rfl h

theorem SummaryKind.cutoff_le (tz : Tz) (zone : ZoneInfo) (nowLocal : Datetime)
    (kind : SummaryKind) : kind.cutoff tz zone nowLocal ≤ zone.toUtc nowLocal := by
  cases kind with
  | eod => exact tz.midnight_le _
  | weekly => exact zone.toUtc_addDays_neg_le nowLocal (by decide)

theorem BooksInvariant.figures {tz : Tz} {start : Time} {s : BooksState}
    (hI : BooksInvariant tz start s) (zone : ZoneInfo) : PeriodFigures tz zone s where
  observer period hperiod := by
    have hrealized : (pnl s.db tz s.now period).realizedPnlDollars =
        realizedPnlSince s.db (period.cutoff tz s.now) tz := if_neg hperiod
    rw [hrealized]
    exact cutAt hI (PnlPeriod.cutoff_le tz s.now hperiod)
  summary kind nowLocal hnow := cutAt hI (hnow ▸ kind.cutoff_le tz zone nowLocal)
  today hnone := by
    have hpnl := realizedPnlSince_eq hI (tz.midnight_le s.now)
    rw [tz.localDay_midnight, sinceSnapshot_today hnone] at hpnl
    exact hpnl

def weekLater : List BooksStep :=
  [.midnight 86400000000 [], .wait 3600000000,
    .fill { hundred "o1" .yes (1 / 10) with
      fill := { (hundred "o1" .yes (1 / 10)).fill with createdTime := some 90000000000 } },
    .midnight 82800000000 []] ++ List.replicate 6 (.midnight 86400000000 []) ++ [.wait 43200000000]

def twoFees : List BooksStep :=
  [.fill (singleBuy "o1" "FOO" .yes 5 (1 / 2)), .fill (singleBuy "o2" "BAR" .yes 35 (1 / 2)),
    .midnight 86400000000 []]

/-- Every period figure is the sum of the deltas of the fills it counts. -/
def PeriodsAgree (tz : Tz) (s : BooksState) : Prop :=
  ∀ period, period ≠ .all → (pnl s.db tz s.now period).realizedPnlDollars =
    deltas (s.counted (period.cutoff tz s.now))

theorem not_periodsAgree_of_run {python : Summation} {rate : ℚ} {tz : Tz} {now : Time}
    {steps : List BooksStep} (period : PnlPeriod) (reported counted : ℚ) (hperiod : period ≠ .all)
    (hne : reported ≠ counted)
    (hrun : (exec (booksStep python rate tz) (.start now) steps).map (fun s =>
      ((pnl s.db tz s.now period).realizedPnlDollars,
        deltas (s.counted (period.cutoff tz s.now)))) = some (reported, counted)) :
    ¬ AllStates (booksStep python rate tz) (PeriodsAgree tz) (.start now) steps := by
  intro h
  obtain ⟨s, hs, hend⟩ := h.last_view hrun
  obtain ⟨hreported, hcounted⟩ := Prod.mk.inj hend
  exact hne (hreported.symm.trans ((hs period hperiod).trans hcounted))

end KalshiAgent
