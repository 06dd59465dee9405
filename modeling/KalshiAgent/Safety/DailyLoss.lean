import KalshiAgent.Lib.Execution
import KalshiAgent.Positions.ApplyFill
import KalshiAgent.Safety.RiskMonitor

/-! The daily-loss stop over runs of fills, snapshot jobs, waiting and restarts. The ghost
state is the list of realized deltas with the instants at which they were returned; the figure
the stop reads is compared with the deltas of the current local day. -/

namespace KalshiAgent
open Binary64 Execution

structure DayState where
  db : Db
  now : Time
  risk : RiskState
  -- the realized deltas returned so far, with the instants of their calls
  returned : List (Time × ℚ)

def DayState.start (now : Time) : DayState := ⟨.empty, now, .start, []⟩

inductive DayStep
  | fill (a : Arrival)
  -- the snapshot job, which runs after the given microseconds
  | midnightSnapshot (elapsed : ℕ)
  -- time passes, with the process up or down
  | wait (elapsed : ℕ)
  | restart

def dayStep (python : Summation) (cfg : Config) (s : DayState) : DayStep → Option DayState
  | .fill a =>
    match applyFill cfg.fees.takerRate s.db a with
    | .ok (db, realized) => some { s with db := db, returned := s.returned ++ [(s.now, realized)] }
    | .error _ => some s
  | .midnightSnapshot elapsed =>
    let now := s.now + elapsed
    let day := cfg.displayTimezone.localDay now
    some { s with now := now, db := snapshotDailyPnl python s.db day cfg.displayTimezone }
  | .wait elapsed => some { s with now := s.now + elapsed }
  -- the rate and error windows live in memory, everything else is on disk
  | .restart => some { s with risk := .start }

def todaysDeltas (tz : Tz) (s : DayState) : ℚ :=
  ((s.returned.filter (fun e => tz.midnight (tz.localDay s.now) ≤ e.1)).map Prod.snd).sum

/-- The daily figure is the sum of today's deltas, and where that sum breaches the limit every
background tick and every check of a whitelisted trade leaves the kill switch engaged. -/
def StopSeesToday (cfg : Config) (s : DayState) : Prop :=
  ∀ monotonic, dailyRealizedPnlDollars cfg.displayTimezone s.db ⟨s.now, monotonic⟩ =
      todaysDeltas cfg.displayTimezone s ∧
    (todaysDeltas cfg.displayTimezone s ≤ -cfg.risk.maxDailyLossUsd → ∀ kill,
      (runBackgroundTick cfg s.db kill ⟨s.now, monotonic⟩).isEngaged = true ∧
        ∀ trade, notWhitelisted cfg.markets trade = none →
          (checkTrade cfg s.db kill s.risk ⟨s.now, monotonic⟩ trade).1.isEngaged = true)

/-- The condition on a step: a local day with a non-zero sum ends with a snapshot job right after
its midnight, and the deltas of a job's own day that come ahead of it sum up to what the job's
float addition loses. -/
def SnapshotOnTime (python : Summation) (tz : Tz) (s : DayState) : DayStep → Prop
  | .fill _ => True
  | .midnightSnapshot elapsed =>
    todaysDeltas tz { s with now := s.now + elapsed } = floatLoss python s.db
  | .wait elapsed => tz.localDay (s.now + elapsed) = tz.localDay s.now ∨ todaysDeltas tz s = 0
  | .restart => True

def dailyFigure (tz : Tz) (s : DayState) : ℚ :=
  cumulativeRealizedPnl s.db -
    ((latestSnapshot s.db (tz.localDay s.now)).map PnlDaily.realizedPnl).getD 0

theorem dailyRealizedPnlDollars_eq (tz : Tz) (s : DayState) (monotonic : ℚ) :
    dailyRealizedPnlDollars tz s.db ⟨s.now, monotonic⟩ = dailyFigure tz s :=
  realizedPnlSince_midnight s.db tz s.now

theorem stopSeesToday_iff (cfg : Config) (s : DayState) :
    StopSeesToday cfg s ↔
      dailyFigure cfg.displayTimezone s = todaysDeltas cfg.displayTimezone s := by
  constructor
  · intro h
    rw [← (h 0).1, dailyRealizedPnlDollars_eq]
  · intro h monotonic
    have hfigure := (dailyRealizedPnlDollars_eq cfg.displayTimezone s monotonic).trans h
    refine ⟨hfigure, fun hloss kill => ?_⟩
    rw [← hfigure] at hloss
    exact ⟨runBackgroundTick_engages hloss kill,
      fun trade hwhite => checkTrade_engages hloss hwhite kill s.risk⟩

structure DayInvariant (tz : Tz) (s : DayState) : Prop where
  cumulative : cumulativeRealizedPnl s.db = (s.returned.map Prod.snd).sum
  past : ∀ e ∈ s.returned, e.1 ≤ s.now
  days : ∀ row ∈ s.db.pnlDaily.rows, row.day ≤ tz.localDay s.now

theorem applyFill_cumulative {rate δ : ℚ} {db db' : Db} {a : Arrival}
    (h : applyFill rate db a = .ok (db', δ)) :
    cumulativeRealizedPnl db' = cumulativeRealizedPnl db + δ ∧ db'.pnlDaily = db.pnlDaily := by
  rcases applyFill_cases h with ⟨_, rfl, rfl⟩ | ⟨_, price, moved, gross, _, htrade, _, rfl⟩
  · exact ⟨(add_zero _).symm, rfl⟩
  · refine ⟨?_, rfl⟩
    have hmoves := trade_moves htrade
    have hticker : (moved.accrue δ).marketTicker = a.fill.ticker := by
      rw [← positionFor_marketTicker db a.fill, ← hmoves.marketTicker]
      rfl
    have hbefore : ((db.positions.find a.fill.ticker).map Position.realizedPnlDollars).getD 0 =
        (db.positionFor a.fill).realizedPnlDollars := by
      unfold Db.positionFor
      cases db.positions.find a.fill.ticker <;> rfl
    unfold cumulativeRealizedPnl Db.recordFill
    dsimp only
    rw [KeyedTable.sum_put, hticker, hbefore, Position.accrue, hmoves.realizedPnlDollars]
    ring

theorem todaysDeltas_append (tz : Tz) (s : DayState) (db : Db) (δ : ℚ) :
    todaysDeltas tz { s with db := db, returned := s.returned ++ [(s.now, δ)] } =
      todaysDeltas tz s + δ := by
  simp [todaysDeltas, List.filter_append, tz.midnight_le s.now]

section Later
variable {tz : Tz} {s : DayState} {elapsed : ℕ}

theorem localDay_le (tz : Tz) (s : DayState) (elapsed : ℕ) :
    tz.localDay s.now ≤ tz.localDay (s.now + elapsed) :=
  tz.localDay_mono (le_add_of_nonneg_right (Int.natCast_nonneg elapsed))

theorem todaysDeltas_newDay (hI : DayInvariant tz s)
    (hday : tz.localDay (s.now + elapsed) ≠ tz.localDay s.now) :
    todaysDeltas tz { s with now := s.now + elapsed } = 0 := by
  have hnone : s.returned.filter
      (fun e => tz.midnight (tz.localDay (s.now + elapsed)) ≤ e.1) = [] := by
    rw [List.filter_eq_nil_iff]
    intro e he hlate
    have hmid := tz.localDay_mono (of_decide_eq_true hlate)
    rw [tz.localDay_midnight] at hmid
    exact hday (le_antisymm (hmid.trans (tz.localDay_mono (hI.past e he))) (localDay_le tz s elapsed))
  simp [todaysDeltas, hnone]

theorem todaysDeltas_sameDay
    (hday : tz.localDay (s.now + elapsed) = tz.localDay s.now) :
    todaysDeltas tz { s with now := s.now + elapsed } = todaysDeltas tz s := by
  simp [todaysDeltas, hday]

theorem dailyFigure_wait (hI : DayInvariant tz s) (elapsed : ℕ) :
    dailyFigure tz { s with now := s.now + elapsed } = dailyFigure tz s := by
  unfold dailyFigure
  dsimp only
  rw [latestSnapshot_of_le hI.days (localDay_le tz s elapsed)]

theorem dailyFigure_snapshot (hI : DayInvariant tz s) (python : Summation) :
    dailyFigure tz { s with
      now := s.now + elapsed
      db := snapshotDailyPnl python s.db (tz.localDay (s.now + elapsed)) tz } =
      floatLoss python s.db := by
  have hlatest := @latestSnapshot_put s.db
    (snapshotDailyPnl python s.db (tz.localDay (s.now + elapsed)) tz) _ _ rfl
    (fun r hr => (hI.days r hr).trans (localDay_le tz s elapsed)) le_rfl
  unfold dailyFigure
  dsimp only
  rw [hlatest]
  rfl

end Later

theorem DayInvariant.step {python : Summation} {cfg : Config} {s s' : DayState} {step : DayStep}
    (hI : DayInvariant cfg.displayTimezone s) (h : dayStep python cfg s step = some s') :
    DayInvariant cfg.displayTimezone s' := by
  cases step with
  | fill a =>
    simp only [dayStep] at h
    cases happ : applyFill cfg.fees.takerRate s.db a with
    | error e =>
      simp only [happ, Option.some.injEq] at h
      exact h ▸ hI
    | ok r =>
      obtain ⟨db, δ⟩ := r
      simp only [happ, Option.some.injEq] at h
      subst h
      obtain ⟨hcum, hdaily⟩ := applyFill_cumulative happ
      refine ⟨?_, ?_, ?_⟩
      · simp [hcum, hI.cumulative]
      · intro e he
        rcases List.mem_append.mp he with he | he
        · exact hI.past e he
        · exact (congrArg Prod.fst (List.mem_singleton.mp he)).le
      · intro row hrow
        exact hI.days row (hdaily ▸ hrow)
  | midnightSnapshot elapsed =>
    cases h
    have hle := localDay_le cfg.displayTimezone s elapsed
    refine ⟨hI.cumulative, ?_, ?_⟩
    · intro e he
      exact (hI.past e he).trans (le_add_of_nonneg_right (Int.natCast_nonneg elapsed))
    · intro row hrow
      rcases KeyedTable.mem_put.mp hrow with rfl | ⟨hold, _⟩
      · exact le_rfl
      · exact (hI.days row hold).trans hle
  | wait elapsed =>
    cases h
    refine ⟨hI.cumulative, ?_, ?_⟩
    · intro e he
      exact (hI.past e he).trans (le_add_of_nonneg_right (Int.natCast_nonneg elapsed))
    · intro row hrow
      exact (hI.days row hrow).trans (localDay_le cfg.displayTimezone s elapsed)
  | restart =>
    cases h
    exact ⟨hI.cumulative, hI.past, hI.days⟩

theorem stopSeesToday_step {python : Summation} {cfg : Config} {s s' : DayState} {step : DayStep}
    (hI : DayInvariant cfg.displayTimezone s) (hs : StopSeesToday cfg s)
    (h : dayStep python cfg s step = some s') :
    StopSeesToday cfg s' ↔ SnapshotOnTime python cfg.displayTimezone s step := by
  rw [stopSeesToday_iff] at hs ⊢
  cases step with
  | fill a =>
    refine iff_of_true ?_ trivial
    simp only [dayStep] at h
    cases happ : applyFill cfg.fees.takerRate s.db a with
    | error e =>
      simp only [happ, Option.some.injEq] at h
      exact h ▸ hs
    | ok r =>
      obtain ⟨db, δ⟩ := r
      simp only [happ, Option.some.injEq] at h
      obtain ⟨hcum, hdaily⟩ := applyFill_cumulative happ
      rw [← h, todaysDeltas_append, ← hs]
      simp only [dailyFigure, latestSnapshot, hcum, hdaily]
      ring
  | midnightSnapshot elapsed =>
    cases h
    rw [dailyFigure_snapshot hI, SnapshotOnTime]
    have hsame : todaysDeltas cfg.displayTimezone { s with
        now := s.now + elapsed
        db := snapshotDailyPnl python s.db (cfg.displayTimezone.localDay (s.now + elapsed))
          cfg.displayTimezone } =
        todaysDeltas cfg.displayTimezone { s with now := s.now + elapsed } := rfl
    rw [hsame, eq_comm]
  | wait elapsed =>
    cases h
    have hfigure := dailyFigure_wait hI elapsed
    rw [hfigure, hs, SnapshotOnTime]
    by_cases hday : cfg.displayTimezone.localDay (s.now + elapsed) = cfg.displayTimezone.localDay s.now
    · have hsame := todaysDeltas_sameDay hday
      exact iff_of_true hsame.symm (.inl hday)
    · have hnew := todaysDeltas_newDay hI hday
      rw [or_iff_right hday]
      exact ⟨fun heq => heq.trans hnew, fun hzero => hzero.trans hnew.symm⟩
  | restart =>
    cases h
    exact iff_of_true hs trivial

/-- The stop sees today's deltas in every state of a run exactly when the snapshots of the run
come on time. -/
theorem stopSeesToday_iff_snapshotOnTime (python : Summation) (cfg : Config) (now : Time)
    (steps : List DayStep) :
    AllStates (dayStep python cfg) (StopSeesToday cfg) (.start now) steps ↔
      AllSteps (dayStep python cfg) (SnapshotOnTime python cfg.displayTimezone) (.start now) steps := by
  refine allStates_iff_allSteps (I := DayInvariant cfg.displayTimezone)
    (fun s step s' hI h => hI.step h) (fun s step s' hI hs h => stopSeesToday_step hI hs h) ?_ ?_
  · exact ⟨rfl, fun e he => absurd he List.not_mem_nil, fun row hrow => absurd hrow List.not_mem_nil⟩
  · rw [stopSeesToday_iff]
    simp [dailyFigure, todaysDeltas, DayState.start, cumulativeRealizedPnl, latestSnapshot, Db.empty]

def singleBuy (orderId : String) (ticker : Ticker) (side : Side) (count : ℤ) (price : ℚ) : Arrival where
  fill := {
    tradeId := none, orderId := orderId, ticker := ticker, side := side, action := .buy, count := count
    yesPriceDollars := some (.decimal price), noPriceDollars := some (.decimal price)
    isTaker := true, createdTime := some 0 }
  nowLookup := 0
  nowStored := 0
  nowSeen := 0

def hundred (orderId : String) (side : Side) (price : ℚ) : Arrival :=
  singleBuy orderId "FOO" side 100 price

def missedMidnight : List DayStep :=
  [.fill (hundred "o1" .yes (1 / 10)), .fill (hundred "o2" .no (1 / 10)), .wait 86400000000,
    .fill (hundred "o3" .yes (9 / 10)), .fill (hundred "o4" .no (9 / 10))]

def exactLoss : List DayStep :=
  [.fill (singleBuy "o1" "FOO" .yes 1 (2 / 5)), .fill (singleBuy "o2" "FOO" .no 1 (23 / 50)),
    .fill (singleBuy "o3" "BAR" .yes 1 (1 / 20)), .fill (singleBuy "o4" "BAR" .no 1 (11 / 50)),
    .midnightSnapshot 86400000000, .fill (singleBuy "o5" "BAZ" .yes 100 (9 / 10)),
    .fill (singleBuy "o6" "BAZ" .no 100 (57 / 100))]

theorem not_stopSeesToday_of_run {cfg : Config} {now : Time} {steps : List DayStep} {loss : ℚ}
    {python : Summation} (hloss : loss ≤ -cfg.risk.maxDailyLossUsd)
    (hrun : (exec (dayStep python cfg) (.start now) steps).map (fun s =>
      (todaysDeltas cfg.displayTimezone s,
        (runBackgroundTick cfg s.db ⟨none⟩ ⟨s.now, 0⟩).isEngaged)) = some (loss, false)) :
    ¬ AllStates (dayStep python cfg) (StopSeesToday cfg) (.start now) steps := by
  intro h
  obtain ⟨s, hs, hend⟩ := h.last_view hrun
  obtain ⟨hsum, hsilent⟩ := Prod.mk.inj hend
  have hstop := ((hs 0).2 (hsum.trans_le hloss) ⟨none⟩).1
  exact Bool.false_ne_true (hsilent.symm.trans hstop)

/-- The day's losses reach the limit of 50 dollars, and the stop stays silent: with 82 dollars after
a midnight without a job, and with 50 where the job wrote 0.7999999999999999 for 0.8. -/
theorem not_stopSeesToday :
    (¬ AllStates (dayStep .naive (.example (.fixed 0))) (StopSeesToday (.example (.fixed 0)))
      (.start 0) missedMidnight) ∧
    ¬ AllStates (dayStep .naive (.example (.fixed 0))) (StopSeesToday (.example (.fixed 0)))
      (.start 0) exactLoss := by
  have hlimit : (Config.example (.fixed 0)).risk.maxDailyLossUsd = 50 := rfl
  have hpast : (-82 : ℚ) ≤ -(Config.example (.fixed 0)).risk.maxDailyLossUsd := by
    rw [hlimit]
    norm_num
  constructor
  · exact not_stopSeesToday_of_run hpast (by decide +kernel)
  · exact not_stopSeesToday_of_run (congrArg Neg.neg hlimit).ge (by decide +kernel)

end KalshiAgent
