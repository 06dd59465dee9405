import KalshiAgent.Safety.DailyLoss

/-! The books over local days: fills are ingested as they occur, and the snapshot job runs at every
local midnight. Each stored fill is kept with the delta it realized. -/

namespace KalshiAgent
open Binary64 Execution

/-- A stored fill, what it realized, and whether it came at a local midnight ahead of the job. -/
structure Booking where
  row : Fill
  realized : ℚ
  early : Bool

structure BooksState where
  db : Db
  now : Time
  -- ghost state: what was booked, and what the float addition of each day's job has lost
  booked : List Booking
  lost : ℤ → ℚ

inductive BooksStep
  | fill (a : Arrival)
  | wait (elapsed : ℕ)
  -- the next local midnight: the fills of that very instant that come first, then the job
  | midnight (elapsed : ℕ) (early : List Arrival)

def BooksState.start (now : Time) : BooksState := ⟨.empty, now, [], fun _ => 0⟩

def BooksState.ingest (rate : ℚ) (early : Bool) (s : BooksState) (a : Arrival) : BooksState :=
  match applyFill rate s.db a with
  | .error _ => s
  | .ok (db, realized) =>
    let stored := db.fills.drop s.db.fills.length
    { s with db := db, booked := s.booked ++ stored.map (fun row => ⟨row, realized, early⟩) }

def BooksState.snapshot (python : Summation) (tz : Tz) (s : BooksState) : BooksState :=
  let day := tz.localDay s.now
  { s with
    db := snapshotDailyPnl python s.db day tz
    lost := Function.update s.lost day (floatLoss python s.db) }

def booksStep (python : Summation) (rate : ℚ) (tz : Tz) (s : BooksState) : BooksStep → Option BooksState
  | .fill a => if a.storedIdentity.createdAt = s.now then some (s.ingest rate false a) else none
  | .wait elapsed =>
    let now := s.now + elapsed
    if tz.localDay now = tz.localDay s.now then some { s with now := now } else none
  | .midnight elapsed early =>
    let now := s.now + elapsed
    let day := tz.localDay now
    -- no local midnight lies between, so that the job of none is missed
    if tz.localDay (now - 1) = tz.localDay s.now ∧ tz.localDay s.now < day ∧ tz.midnight day = now ∧
        ∀ a ∈ early, a.storedIdentity.createdAt = now then
      some ((early.foldl (BooksState.ingest rate true) { s with now := now }).snapshot python tz)
    else none

def Booking.day (tz : Tz) (b : Booking) : ℤ := tz.localDay b.row.createdAt

/-- The booking was there when the snapshot of the day was taken. -/
def Booking.snapshotted (tz : Tz) (day : ℤ) (b : Booking) : Bool :=
  b.day tz < day ∨ (b.day tz = day ∧ b.early = true)

def deltas (bookings : List Booking) : ℚ := (bookings.map Booking.realized).sum

structure BookedAt (s s' : BooksState) (early : Bool) (t : Time) (new : List Booking) : Prop where
  now : s'.now = s.now
  pnlDaily : s'.db.pnlDaily = s.db.pnlDaily
  lost : s'.lost = s.lost
  booked : s'.booked = s.booked ++ new
  fills : s'.db.fills = s.db.fills ++ new.map Booking.row
  cumulative : cumulativeRealizedPnl s'.db = cumulativeRealizedPnl s.db + deltas new
  instant : ∀ b ∈ new, b.row.createdAt = t ∧ b.early = early

theorem deltas_append (xs ys : List Booking) : deltas (xs ++ ys) = deltas xs + deltas ys := by
  unfold deltas
  rw [List.map_append, List.sum_append]

namespace BookedAt
variable {s s' s'' : BooksState} {early : Bool} {t : Time} {new new' : List Booking}

theorem refl (s : BooksState) (early : Bool) (t : Time) : BookedAt s s early t [] where
  now := rfl
  pnlDaily := rfl
  lost := rfl
  booked := (List.append_nil _).symm
  fills := (List.append_nil _).symm
  cumulative := (add_zero _).symm
  instant := nofun

theorem trans (h : BookedAt s s' early t new) (h' : BookedAt s' s'' early t new') :
    BookedAt s s'' early t (new ++ new') where
  now := h'.now.trans h.now
  pnlDaily := h'.pnlDaily.trans h.pnlDaily
  lost := h'.lost.trans h.lost
  booked := by rw [h'.booked, h.booked, List.append_assoc]
  fills := by rw [h'.fills, h.fills, List.map_append, List.append_assoc]
  cumulative := by rw [h'.cumulative, h.cumulative, deltas_append, add_assoc]
  instant := by
    intro b hb
    exact (List.mem_append.mp hb).elim (h.instant b) (h'.instant b)

end BookedAt

theorem ingest_bookedAt (rate : ℚ) (early : Bool) (s : BooksState) (a : Arrival) :
    ∃ new, BookedAt s (s.ingest rate early a) early a.storedIdentity.createdAt new := by
  unfold BooksState.ingest
  cases happ : applyFill rate s.db a with
  | error e => exact ⟨[], .refl s early _⟩
  | ok r =>
    obtain ⟨db, δ⟩ := r
    obtain ⟨hcumulative, hdaily⟩ := applyFill_cumulative happ
    rcases applyFill_cases happ with ⟨_, rfl, rfl⟩ | ⟨_, price, moved, gross, _, _, _, rfl⟩
    · refine ⟨[], ?_⟩
      dsimp only
      rw [List.drop_length, List.map_nil, List.append_nil]
      exact .refl s early _
    · refine ⟨[⟨a.row price _, δ, early⟩], rfl, hdaily, rfl, ?_, rfl, ?_, ?_⟩
      · dsimp only [Db.recordFill]
        rw [List.drop_left]
        rfl
      · rw [hcumulative]
        congr 1
        exact (add_zero δ).symm
      · intro b hb
        rw [List.mem_singleton.mp hb]
        exact ⟨rfl, rfl⟩

theorem foldl_ingest_bookedAt (rate : ℚ) (early : Bool) {t : Time} {arrivals : List Arrival}
    (h : ∀ a ∈ arrivals, a.storedIdentity.createdAt = t) (s : BooksState) :
    ∃ new, BookedAt s (arrivals.foldl (BooksState.ingest rate early) s) early t new := by
  induction arrivals generalizing s with
  | nil => exact ⟨[], .refl s early t⟩
  | cons a as ih =>
    obtain ⟨new, hfirst⟩ := ingest_bookedAt rate early s a
    rw [h a List.mem_cons_self] at hfirst
    obtain ⟨new', hrest⟩ := ih (fun b hb => h b (List.mem_cons_of_mem a hb)) (s.ingest rate early a)
    exact ⟨new ++ new', hfirst.trans hrest⟩

structure MidnightPassed (tz : Tz) (s s₁ : BooksState) (new : List Booking) : Prop where
  nextDay : tz.localDay s.now < tz.localDay s₁.now
  gapless : tz.localDay (s₁.now - 1) = tz.localDay s.now
  isMidnight : tz.midnight (tz.localDay s₁.now) = s₁.now
  ingested : BookedAt { s with now := s₁.now } s₁ true s₁.now new

theorem booksStep_cases {python : Summation} {rate : ℚ} {tz : Tz} {s s' : BooksState}
    {step : BooksStep} (h : booksStep python rate tz s step = some s') :
    (∃ new, BookedAt s s' false s.now new) ∨
      (∃ elapsed : ℕ, tz.localDay (s.now + elapsed) = tz.localDay s.now ∧
        s' = { s with now := s.now + elapsed }) ∨
      ∃ s₁ new, MidnightPassed tz s s₁ new ∧ s' = s₁.snapshot python tz := by
  cases step with
  | fill a =>
    simp only [booksStep] at h
    split_ifs at h with htime
    cases h
    obtain ⟨new, hnew⟩ := ingest_bookedAt rate false s a
    exact .inl ⟨new, htime ▸ hnew⟩
  | wait elapsed =>
    simp only [booksStep] at h
    split_ifs at h with hday
    cases h
    exact .inr (.inl ⟨elapsed, hday, rfl⟩)
  | midnight elapsed early =>
    simp only [booksStep] at h
    split_ifs at h with hguard
    obtain ⟨hgapless, hnext, hmidnight, hearly⟩ := hguard
    obtain ⟨new, hnew⟩ := foldl_ingest_bookedAt rate true hearly { s with now := s.now + elapsed }
    generalize early.foldl (BooksState.ingest rate true) { s with now := s.now + elapsed } = s₁
      at h hnew
    have hnow : s₁.now = s.now + elapsed := hnew.now
    rw [← hnow] at hgapless hnext hmidnight hnew
    exact .inr (.inr ⟨s₁, new, ⟨hnext, hgapless, hmidnight, hnew⟩, (Option.some.inj h).symm⟩)

theorem localDay_lt_of_midnight {tz : Tz} {day : ℤ} {now t : Time}
    (hday : tz.localDay (tz.midnight day) = day) (hlt : now < tz.midnight day)
    (hle : tz.midnight day ≤ t) : tz.localDay now < tz.localDay t := by
  by_contra hge
  have hnow : tz.localDay now ≤ day := hday ▸ tz.localDay_mono hlt.le
  have hthen : day ≤ tz.localDay t := hday ▸ tz.localDay_mono hle
  have hsame : day = tz.localDay now := le_antisymm (hthen.trans (not_lt.mp hge)) hnow
  exact absurd (hsame ▸ tz.midnight_le now) (not_le.mpr hlt)

namespace MidnightPassed
variable {tz : Tz} {s s₁ : BooksState} {new : List Booking}

theorem later (h : MidnightPassed tz s s₁ new) : s.now ≤ s₁.now := by
  by_contra hlt
  exact absurd h.nextDay (not_lt.mpr (tz.localDay_mono (not_le.mp hlt).le))

theorem day_eq (h : MidnightPassed tz s s₁ new) {b : Booking} (hb : b ∈ new) :
    b.day tz = tz.localDay s₁.now :=
  congrArg tz.localDay (h.ingested.instant b hb).1

theorem filter_earlierDay (h : MidnightPassed tz s s₁ new) {day : ℤ}
    (hday : day ≤ tz.localDay s.now) : new.filter (Booking.snapshotted tz day) = [] := by
  apply List.filter_eq_nil_iff.mpr
  intro b hb htrue
  have hlt : day < b.day tz := by
    rw [h.day_eq hb]
    exact hday.trans_lt h.nextDay
  rcases of_decide_eq_true htrue with hbefore | ⟨hsame, _⟩
  · exact lt_asymm hlt hbefore
  · exact hlt.ne' hsame

theorem midnight_le (h : MidnightPassed tz s s₁ new) {day : ℤ}
    (hreal : tz.localDay (tz.midnight day) = day) (hle : tz.midnight day ≤ s₁.now)
    (hother : tz.localDay s₁.now ≠ day) : tz.midnight day ≤ s.now := by
  by_contra hafter
  have hbefore : tz.midnight day ≤ s₁.now - 1 := by
    refine Int.le_sub_one_of_lt (lt_of_le_of_ne hle ?_)
    intro heq
    rw [← heq] at hother
    exact hother hreal
  exact absurd (localDay_lt_of_midnight hreal (not_le.mp hafter) hbefore) (not_lt.mpr h.gapless.le)

end MidnightPassed

/-- What a run keeps: the tables hold the bookings, and the snapshot of a day holds the total of the
bookings that were there when it was taken. -/
structure BooksInvariant (tz : Tz) (start : Time) (s : BooksState) : Prop where
  fills : s.db.fills = s.booked.map Booking.row
  cumulative : cumulativeRealizedPnl s.db = deltas s.booked
  started : start ≤ s.now
  past : ∀ b ∈ s.booked, start ≤ b.row.createdAt ∧ b.row.createdAt ≤ s.now
  early : ∀ b ∈ s.booked, b.early = true → tz.localDay start < b.day tz
  days : ∀ row ∈ s.db.pnlDaily.rows, tz.localDay start < row.day ∧ row.day ≤ tz.localDay s.now
  snapshots : ∀ day, tz.localDay (tz.midnight day) = day → start < tz.midnight day →
    tz.midnight day ≤ s.now → s.db.pnlDaily.find day ≠ none
  baseline : ∀ row ∈ s.db.pnlDaily.rows,
    row.realizedPnl + s.lost row.day = deltas (s.booked.filter (Booking.snapshotted tz row.day))
  lost : ∀ day ≤ tz.localDay start, s.lost day = 0

theorem BooksInvariant.start (tz : Tz) (now : Time) : BooksInvariant tz now (.start now) where
  fills := rfl
  cumulative := rfl
  started := le_rfl
  past := nofun
  early := nofun
  days := nofun
  snapshots _ _ hlt hle := absurd hle (not_le.mpr hlt)
  baseline := nofun
  lost _ _ := rfl

namespace BooksInvariant
variable {python : Summation} {tz : Tz} {start : Time} {s s₁ s' : BooksState} {new : List Booking}

theorem ingested (hI : BooksInvariant tz start s) (h : BookedAt s s' false s.now new) :
    BooksInvariant tz start s' where
  fills := by rw [h.fills, h.booked, hI.fills, List.map_append]
  cumulative := by rw [h.cumulative, h.booked, hI.cumulative, deltas_append]
  started := by
    rw [h.now]
    exact hI.started
  past := by
    rw [h.now, h.booked]
    intro b hb
    rcases List.mem_append.mp hb with hold | hnew
    · exact hI.past b hold
    · rw [(h.instant b hnew).1]
      exact ⟨hI.started, le_rfl⟩
  early := by
    rw [h.booked]
    intro b hb htrue
    rcases List.mem_append.mp hb with hold | hnew
    · exact hI.early b hold htrue
    · exact absurd ((h.instant b hnew).2.symm.trans htrue) Bool.false_ne_true
  days := by
    rw [h.pnlDaily, h.now]
    exact hI.days
  snapshots := by
    rw [h.pnlDaily, h.now]
    exact hI.snapshots
  baseline := by
    rw [h.pnlDaily, h.booked, h.lost]
    intro row hrow
    have hnone : new.filter (Booking.snapshotted tz row.day) = [] := by
      apply List.filter_eq_nil_iff.mpr
      intro b hb htrue
      obtain ⟨htime, hearly⟩ := h.instant b hb
      rcases of_decide_eq_true htrue with hlt | ⟨_, htrue⟩
      · rw [Booking.day, htime] at hlt
        exact absurd (hI.days row hrow).2 (not_le.mpr hlt)
      · exact absurd (hearly.symm.trans htrue) Bool.false_ne_true
    rw [List.filter_append, hnone, List.append_nil]
    exact hI.baseline row hrow
  lost := by
    rw [h.lost]
    exact hI.lost

theorem wait (hI : BooksInvariant tz start s) {elapsed : ℕ}
    (hday : tz.localDay (s.now + elapsed) = tz.localDay s.now) :
    BooksInvariant tz start { s with now := s.now + elapsed } where
  fills := hI.fills
  cumulative := hI.cumulative
  started := hI.started.trans (le_add_of_nonneg_right (Int.natCast_nonneg elapsed))
  past b hb := ⟨(hI.past b hb).1,
    (hI.past b hb).2.trans (le_add_of_nonneg_right (Int.natCast_nonneg elapsed))⟩
  early := hI.early
  days row hrow := ⟨(hI.days row hrow).1, (hI.days row hrow).2.trans hday.ge⟩
  snapshots := by
    intro day hreal hstart hle
    rcases le_or_gt (tz.midnight day) s.now with hpast | hlater
    · exact hI.snapshots day hreal hstart hpast
    · exact absurd (localDay_lt_of_midnight hreal hlater hle) (not_lt.mpr hday.le)
  baseline := hI.baseline
  lost := hI.lost

theorem day_le (hI : BooksInvariant tz start s) {b : Booking} (hb : b ∈ s.booked) :
    b.day tz ≤ tz.localDay s.now := tz.localDay_mono (hI.past b hb).2

theorem filter_newDay (hI : BooksInvariant tz start s) (h : MidnightPassed tz s s₁ new) :
    s₁.booked.filter (Booking.snapshotted tz (tz.localDay s₁.now)) = s₁.booked := by
  rw [List.filter_eq_self, h.ingested.booked]
  intro b hb
  rcases List.mem_append.mp hb with hold | hnew
  · exact decide_eq_true (.inl ((hI.day_le hold).trans_lt h.nextDay))
  · exact decide_eq_true (.inr ⟨h.day_eq hnew, (h.ingested.instant b hnew).2⟩)

theorem midnight (hI : BooksInvariant tz start s) (h : MidnightPassed tz s s₁ new) :
    BooksInvariant tz start (s₁.snapshot python tz) := by
  have hcumulative : cumulativeRealizedPnl s₁.db = deltas s₁.booked := by
    rw [h.ingested.cumulative, h.ingested.booked, deltas_append]
    exact congrArg (· + deltas new) hI.cumulative
  have hday : tz.localDay s.now < tz.localDay s₁.now := h.nextDay
  have hrows : ∀ row ∈ (s₁.snapshot python tz).db.pnlDaily.rows,
      (row.day = tz.localDay s₁.now ∧ row.realizedPnl = floatRealizedTotal python s₁.db) ∨
        row ∈ s.db.pnlDaily.rows := by
    intro row hrow
    rcases KeyedTable.mem_put.mp hrow with rfl | ⟨hold, _⟩
    · exact .inl ⟨rfl, rfl⟩
    · rw [h.ingested.pnlDaily] at hold
      exact .inr hold
  have hlost : ∀ day ≤ tz.localDay s.now, (s₁.snapshot python tz).lost day = s.lost day := by
    intro day hearlier
    have hsame : (s₁.snapshot python tz).lost day = s₁.lost day :=
      Function.update_of_ne (hearlier.trans_lt hday).ne _ _
    rw [hsame, h.ingested.lost]
  refine ⟨?_, hcumulative, hI.started.trans h.later, ?_, ?_, ?_, ?_, ?_, ?_⟩
  · show s₁.db.fills = s₁.booked.map Booking.row
    rw [h.ingested.fills, h.ingested.booked, List.map_append]
    exact congrArg (· ++ new.map Booking.row) hI.fills
  · show ∀ b ∈ s₁.booked, start ≤ b.row.createdAt ∧ b.row.createdAt ≤ s₁.now
    rw [h.ingested.booked]
    intro b hb
    rcases List.mem_append.mp hb with hold | hnew
    · exact ⟨(hI.past b hold).1, (hI.past b hold).2.trans h.later⟩
    · rw [(h.ingested.instant b hnew).1]
      exact ⟨hI.started.trans h.later, le_rfl⟩
  · show ∀ b ∈ s₁.booked, b.early = true → tz.localDay start < b.day tz
    rw [h.ingested.booked]
    intro b hb htrue
    rcases List.mem_append.mp hb with hold | hnew
    · exact hI.early b hold htrue
    · rw [h.day_eq hnew]
      exact (tz.localDay_mono hI.started).trans_lt h.nextDay
  · intro row hrow
    show tz.localDay start < row.day ∧ row.day ≤ tz.localDay s₁.now
    rcases hrows row hrow with ⟨hnew, _⟩ | hold
    · rw [hnew]
      exact ⟨(tz.localDay_mono hI.started).trans_lt h.nextDay, le_rfl⟩
    · obtain ⟨hfirst, hlast⟩ := hI.days row hold
      exact ⟨hfirst, hlast.trans h.nextDay.le⟩
  · intro day hreal hstart hle
    have hfind : (s₁.snapshot python tz).db.pnlDaily.find day =
        if tz.localDay s₁.now = day then _ else s₁.db.pnlDaily.find day :=
      KeyedTable.find_put _ _ day
    rw [hfind]
    split_ifs with hsame
    · exact Option.some_ne_none _
    · rw [h.ingested.pnlDaily]
      exact hI.snapshots day hreal hstart (h.midnight_le hreal hle hsame)
  · intro row hrow
    show row.realizedPnl + (s₁.snapshot python tz).lost row.day =
      deltas (s₁.booked.filter (Booking.snapshotted tz row.day))
    rcases hrows row hrow with ⟨hnew, htotal⟩ | hold
    · have hjob : (s₁.snapshot python tz).lost (tz.localDay s₁.now) =
          floatLoss python s₁.db := Function.update_self _ _ _
      rw [htotal, hnew, hjob, hI.filter_newDay h, floatLoss, hcumulative, add_sub_cancel]
    · rw [hlost _ (hI.days row hold).2, h.ingested.booked, List.filter_append,
        h.filter_earlierDay (hI.days row hold).2, List.append_nil]
      exact hI.baseline row hold
  · intro day hle
    rw [hlost day (hle.trans (tz.localDay_mono hI.started))]
    exact hI.lost day hle

theorem step {rate : ℚ} {step : BooksStep} (hI : BooksInvariant tz start s)
    (h : booksStep python rate tz s step = some s') : BooksInvariant tz start s' := by
  rcases booksStep_cases h with ⟨new, hnew⟩ | ⟨elapsed, hday, rfl⟩ | ⟨s₁, new, hpassed, rfl⟩
  · exact hI.ingested hnew
  · exact hI.wait hday
  · exact hI.midnight hpassed

end BooksInvariant

end KalshiAgent
