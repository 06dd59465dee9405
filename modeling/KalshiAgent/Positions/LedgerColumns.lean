import KalshiAgent.Positions.DailyBooks

/-! The fees and the trade count of the daily rows. The job writes the row of a day as the day
begins, so it counts the fills of the midnight that came ahead of it and none of the day itself. -/

namespace KalshiAgent
open Execution

/-- A display time zone in which a day ends with the midnight of the next date. -/
structure CalendarTz extends Tz where
  lt_midnight : ∀ t, t < midnight (localDay t + 1)

def CalendarTz.fixed (offset : ℤ) : CalendarTz where
  toTz := .fixed offset
  lt_midnight t := by
    have hlt := Int.lt_ediv_add_one_mul_self (t + offset) (b := 86400000000) (by decide)
    exact lt_sub_iff_add_lt.mpr hlt

def fillsIn (tz : Tz) (db : Db) (day : ℤ) : List Fill :=
  db.fills.filter (fun f => tz.localDay f.createdAt = day)

def fees (fills : List Fill) : ℚ := (fills.map (fun f => f.feeDollars.toDecimal)).sum

structure DayOver (tz : Tz) (start : Time) (s : BooksState) (day : ℤ) : Prop where
  occurs : tz.localDay (tz.midnight day) = day
  begun : start < tz.midnight day
  ended : day < tz.localDay s.now

/-- The row of the day holds the fees and the number of its fills. -/
def RowRight (tz : Tz) (s : BooksState) (day : ℤ) : Prop :=
  ∃ row, s.db.pnlDaily.find day = some row ∧ row.fees = fees (fillsIn tz s.db day) ∧
    row.tradeCount = (fillsIn tz s.db day).length

def BooksState.fillsOf (tz : Tz) (s : BooksState) (day : ℤ) (early : Bool) : List Fill :=
  (s.booked.filter (fun b => b.day tz = day ∧ b.early = early)).map Booking.row

def LedgerInvariant (tz : Tz) (s : BooksState) : Prop :=
  ∀ row ∈ s.db.pnlDaily.rows, row.fees = fees (s.fillsOf tz row.day true) ∧
    row.tradeCount = (s.fillsOf tz row.day true).length

theorem fees_perm {xs ys : List Fill} (h : xs.Perm ys) : fees xs = fees ys := (h.map _).sum_eq

theorem fillsOf_append {tz : Tz} {s s' : BooksState} {new : List Booking} {early : Bool} {day : ℤ}
    (hbooked : s'.booked = s.booked ++ new)
    (hnew : ∀ b ∈ new, ¬ (b.day tz = day ∧ b.early = early)) :
    s'.fillsOf tz day early = s.fillsOf tz day early := by
  have hnone : new.filter (fun b => b.day tz = day ∧ b.early = early) = [] := by
    apply List.filter_eq_nil_iff.mpr
    intro b hb htrue
    exact hnew b hb (of_decide_eq_true htrue)
  unfold BooksState.fillsOf
  rw [hbooked, List.filter_append, hnone, List.append_nil]

theorem dailyFills_eq {tz : CalendarTz} {start : Time} {s s₁ : BooksState} {new : List Booking}
    (hI : BooksInvariant tz.toTz start s) (h : MidnightPassed tz.toTz s s₁ new) :
    s₁.db.fills.filter (fun f => tz.midnight (tz.localDay s₁.now) ≤ f.createdAt ∧
        f.createdAt < tz.midnight (tz.localDay s₁.now + 1)) =
      s₁.fillsOf tz.toTz (tz.localDay s₁.now) true := by
  have hfills : s₁.db.fills = s₁.booked.map Booking.row := by
    rw [h.ingested.fills, h.ingested.booked, List.map_append]
    exact congrArg (· ++ new.map Booking.row) hI.fills
  unfold BooksState.fillsOf
  rw [hfills, List.filter_map]
  congr 1
  apply List.filter_congr
  intro b hb
  rw [Function.comp_apply, decide_eq_decide, h.isMidnight]
  rw [h.ingested.booked] at hb
  rcases List.mem_append.mp hb with hold | hnew
  · have hlt : b.day tz.toTz < tz.localDay s₁.now := (hI.day_le hold).trans_lt h.nextDay
    refine iff_of_false (fun hin => ?_) (fun hin => hlt.ne hin.1)
    exact absurd hlt (not_lt.mpr (tz.localDay_mono hin.1))
  · obtain ⟨htime, hearly⟩ := h.ingested.instant b hnew
    refine iff_of_true ?_ ⟨congrArg tz.localDay htime, hearly⟩
    rw [htime]
    exact ⟨le_rfl, tz.lt_midnight s₁.now⟩

theorem LedgerInvariant.step {python : Binary64.Summation} {rate : ℚ} {tz : CalendarTz}
    {start : Time} {s s' : BooksState} {step : BooksStep} (hI : BooksInvariant tz.toTz start s)
    (hL : LedgerInvariant tz.toTz s) (h : booksStep python rate tz.toTz s step = some s') :
    LedgerInvariant tz.toTz s' := by
  rcases booksStep_cases h with ⟨new, hnew⟩ | ⟨elapsed, hday, rfl⟩ | ⟨s₁, new, hpassed, rfl⟩
  · intro row hrow
    rw [hnew.pnlDaily] at hrow
    rw [fillsOf_append hnew.booked]
    · exact hL row hrow
    · intro b hb hearly
      exact Bool.false_ne_true ((hnew.instant b hb).2.symm.trans hearly.2)
  · exact hL
  · intro row hrow
    rcases KeyedTable.mem_put.mp hrow with rfl | ⟨hold, _⟩
    · have hread := dailyFills_eq hI hpassed
      exact ⟨congrArg fees hread, congrArg List.length hread⟩
    · rw [hpassed.ingested.pnlDaily] at hold
      have hkeep : (s₁.snapshot python tz.toTz).fillsOf tz.toTz row.day true =
          s.fillsOf tz.toTz row.day true := by
        apply fillsOf_append hpassed.ingested.booked
        intro b hb hin
        have hlt := (hI.days row hold).2.trans_lt hpassed.nextDay
        exact hlt.ne (hin.1.symm.trans (congrArg tz.localDay (hpassed.ingested.instant b hb).1))
      rw [hkeep]
      exact hL row hold

theorem fillsIn_perm {tz : Tz} {start : Time} {s : BooksState} (hI : BooksInvariant tz start s)
    (day : ℤ) :
    (fillsIn tz s.db day).Perm (s.fillsOf tz day true ++ s.fillsOf tz day false) := by
  have hparts := List.filter_append_perm Booking.early (s.booked.filter (fun b => b.day tz = day))
  have hday : fillsIn tz s.db day = (s.booked.filter (fun b => b.day tz = day)).map Booking.row := by
    unfold fillsIn
    rw [hI.fills, List.filter_map]
    rfl
  unfold BooksState.fillsOf
  rw [hday, ← List.map_append]
  apply List.Perm.map
  refine hparts.symm.trans (List.Perm.of_eq ?_)
  rw [List.filter_filter, List.filter_filter]
  congr 1
  · apply List.filter_congr
    intro b _
    cases b.early <;> simp
  · apply List.filter_congr
    intro b _
    cases b.early <;> simp

theorem rowRight_iff {tz : Tz} {start : Time} {s : BooksState} {day : ℤ}
    (hI : BooksInvariant tz start s) (hL : LedgerInvariant tz s) (hday : DayOver tz start s day) :
    RowRight tz s day ↔ s.fillsOf tz day false = [] := by
  have hbegun : tz.midnight day ≤ s.now := by
    by_contra hlater
    have hle := tz.localDay_mono (not_le.mp hlater).le
    rw [hday.occurs] at hle
    exact absurd hday.ended (not_lt.mpr hle)
  obtain ⟨row, hrow⟩ := Option.ne_none_iff_exists'.mp
    (hI.snapshots day hday.occurs hday.begun hbegun)
  obtain ⟨hfees, hcount⟩ := hL row (KeyedTable.mem_of_find hrow)
  rw [KeyedTable.find_key hrow] at hfees hcount
  have hperm := fillsIn_perm hI day
  constructor
  · rintro ⟨row', hrow', _, hright⟩
    obtain rfl := Option.some.inj (hrow.symm.trans hrow')
    rw [hperm.length_eq, List.length_append, hcount] at hright
    exact List.length_eq_zero_iff.mp (by omega)
  · intro hnone
    rw [hnone, List.append_nil] at hperm
    exact ⟨row, hrow, hfees.trans (fees_perm hperm).symm, hcount.trans hperm.length_eq.symm⟩

/-- In every state of a run, the row of a day that is over holds the day's fees and trade count
exactly when no fill of the day was stored after its midnight job. -/
theorem rowRight_iff_noneAfterJob (python : Binary64.Summation) (rate : ℚ) (tz : CalendarTz)
    (now : Time) (steps : List BooksStep) :
    AllStates (booksStep python rate tz.toTz)
      (fun s => ∀ day, DayOver tz.toTz now s day →
        (RowRight tz.toTz s day ↔ s.fillsOf tz.toTz day false = []))
      (.start now) steps := by
  apply allStates_of_invariant (I := fun s => BooksInvariant tz.toTz now s ∧ LedgerInvariant tz.toTz s)
  · rintro s step s' ⟨hI, hL⟩ h
    exact ⟨hI.step h, hL.step hI h⟩
  · rintro s ⟨hI, hL⟩ day hday
    exact rowRight_iff hI hL hday
  · exact ⟨.start tz.toTz now, nofun⟩

def morningFill : List BooksStep :=
  [.midnight 86400000000 [], .wait 3600000000,
    .fill { hundred "o1" .yes (1 / 10) with
      fill := { (hundred "o1" .yes (1 / 10)).fill with createdTime := some 90000000000 } },
    .midnight 82800000000 []]

/-- The row of day 1 counts no fill. -/
theorem not_rowRight_morningFill :
    ¬ AllStates (booksStep .naive (7 / 100) (.fixed 0))
      (fun s => ∀ day, DayOver (.fixed 0) 0 s day → RowRight (.fixed 0) s day) (.start 0)
      morningFill := by
  intro h
  have hrun : (exec (booksStep .naive (7 / 100) (.fixed 0)) (.start 0) morningFill).map (fun s =>
      (s.now, (s.db.pnlDaily.find 1).map PnlDaily.tradeCount, (fillsIn (.fixed 0) s.db 1).length)) =
      some (172800000000, some 0, 1) := by
    decide +kernel
  obtain ⟨s, hs, hend⟩ := h.last_view hrun
  simp only [Prod.mk.injEq] at hend
  obtain ⟨hnow, hcount, hfills⟩ := hend
  have hday : DayOver (.fixed 0) 0 s 1 := by
    refine ⟨by decide, by decide, ?_⟩
    rw [hnow]
    decide
  obtain ⟨row, hrow, _, hright⟩ := hs 1 hday
  rw [hrow, Option.map_some, Option.some.injEq] at hcount
  rw [hcount, hfills] at hright
  exact absurd hright (by decide)

end KalshiAgent
