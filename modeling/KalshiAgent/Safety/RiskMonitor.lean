import KalshiAgent.Lib.Text
import KalshiAgent.Lib.Window
import KalshiAgent.Safety.Fees
import KalshiAgent.Safety.KillSwitch
import KalshiAgent.Safety.Pnl

/-! Pre-trade and post-trade risk checks. The gates of `check_trade` come first, then one of
two sizings: a buy that closes the held side, or one that opens contracts. The sizing is in
exact arithmetic, without the rounding of a `Decimal` to 28 digits. -/

namespace KalshiAgent
open Rounding

inductive RiskReason
  | killSwitchEngaged
  | tickerNotWhitelisted
  | categoryNotWhitelisted (marketCategory : Option String)
  | maxOrdersPerMinuteExceeded
  | maxDailyLossExceeded
  | priceAtExtremum
  | maxTotalExposureExceeded
  | noEdge
  | kellyZeroOrNegative
  | perMarketCapFull
  | sizeBelowOneContract
  | zeroCapitalAtRisk
  | edgeBelowMin (edgeBps : ℚ) (minEdgeAfterFeesBps : ℤ)
  deriving DecidableEq

def RiskReason.text : RiskReason → String
  | killSwitchEngaged => "kill_switch_engaged"
  | tickerNotWhitelisted => "ticker_not_whitelisted"
  | categoryNotWhitelisted c => "category_not_whitelisted:" ++ c.getD "None"
  | maxOrdersPerMinuteExceeded => "max_orders_per_minute_exceeded"
  | maxDailyLossExceeded => "max_daily_loss_exceeded"
  | priceAtExtremum => "price_at_extremum"
  | maxTotalExposureExceeded => "max_total_exposure_exceeded"
  | noEdge => "no_edge"
  | kellyZeroOrNegative => "kelly_zero_or_negative"
  | perMarketCapFull => "per_market_cap_full"
  | sizeBelowOneContract => "size_below_one_contract"
  | zeroCapitalAtRisk => "zero_capital_at_risk"
  | edgeBelowMin edgeBps minBps =>
    -- `:.0f` keeps the sign of a negative number that rounds to zero
    let shown := (if edgeBps < 0 then "-" else "") ++ toString (roundHalfEven edgeBps).natAbs
    "edge_below_min:" ++ shown ++ "bps<" ++ toString minBps ++ "bps"

structure RiskDecision where
  allowed : Bool
  reason : Option RiskReason
  sizedContracts : ℤ
  expectedFeesDollars : ℚ
  expectedEdgeDollars : ℚ
  deriving DecidableEq

def RiskDecision.reject (reason : RiskReason) : RiskDecision := ⟨false, some reason, 0, 0, 0⟩

/-- The two clocks a check reads: `datetime.now` and `time.monotonic`. -/
structure Clock where
  now : Time
  monotonic : ℚ

structure RiskState where
  orderTimestamps : List ℚ
  errorTimestamps : List ℚ

def RiskState.start : RiskState := ⟨[], []⟩

def pushTimestamp (timestamps : List ℚ) (t : ℚ) : List ℚ :=
  let all := timestamps ++ [t]
  all.drop (all.length - 200)

theorem pushTimestamp_eq (timestamps : List ℚ) (t : ℚ) :
    pushTimestamp timestamps t = Window.keepLast 200 (timestamps ++ [t]) := rfl

def RiskState.recordOrderAttempt (st : RiskState) (clock : Clock) : RiskState :=
  { st with orderTimestamps := pushTimestamp st.orderTimestamps clock.monotonic }

@[simp] theorem RiskState.recordOrderAttempt_orderTimestamps (st : RiskState) (clock : Clock) :
    (st.recordOrderAttempt clock).orderTimestamps =
      pushTimestamp st.orderTimestamps clock.monotonic := by
  rw [recordOrderAttempt]

def ordersInLastMinute (st : RiskState) (clock : Clock) : ℕ :=
  st.orderTimestamps.countP (fun t => clock.monotonic - 60 ≤ t)

def maybeTripOnErrorSpike (cfg : RiskConfig) (kill : KillSwitch) (st : RiskState) (clock : Clock) :
    KillSwitch :=
  let cutoff := clock.monotonic - cfg.errorSpikeWindowSeconds
  let recent := st.errorTimestamps.countP (fun t => cutoff ≤ t)
  if cfg.errorSpikeThreshold ≤ recent then
    kill.engage (.errorSpike recent cfg.errorSpikeWindowSeconds) "risk_monitor"
  else kill

def recordError (cfg : RiskConfig) (kill : KillSwitch) (st : RiskState) (clock : Clock) :
    KillSwitch × RiskState :=
  -- no await lies between the two readings of `time.monotonic`, they are taken as one
  let st := { st with errorTimestamps := pushTimestamp st.errorTimestamps clock.monotonic }
  (maybeTripOnErrorSpike cfg kill st clock, st)

def currentTotalExposureDollars (db : Db) : ℚ := db.positions.sum Position.exposure

def currentPositionExposureDollars (db : Db) (ticker : Ticker) : ℚ :=
  match db.positions.find ticker with
  | none => 0
  | some p => p.exposure

def dailyRealizedPnlDollars (tz : Tz) (db : Db) (clock : Clock) : ℚ :=
  let midnightLocal := tz.midnight (tz.localDay clock.now)
  realizedPnlSince db midnightLocal tz

structure Trade where
  marketTicker : Ticker
  side : Side
  modelProbability : ℚ
  currentPrice : ℚ
  confidence : ℚ
  bankrollDollars : ℚ
  marketCategory : Option String

def closingDecision (cfg : Config) (trade : Trade) (existing : Position) : RiskDecision :=
  let price := trade.currentPrice
  let contracts := min existing.count cfg.risk.perOrderMaxContracts
  let fees := totalFeeDollars contracts price cfg.fees.assumeTaker cfg.fees.takerRate
  let closeEdge := (1 - existing.avgPriceDollars.toDecimal - price) * contracts - fees
  ⟨true, none, contracts, fees, closeEdge⟩

def edgeDecision (cfg : Config) (trade : Trade) (contracts : ℤ) : RiskDecision :=
  let price := trade.currentPrice
  let fees := totalFeeDollars contracts price cfg.fees.assumeTaker cfg.fees.takerRate
  let edge := edgeAfterFeesDollars contracts trade.modelProbability price trade.side
    cfg.fees.assumeTaker cfg.fees.takerRate
  let capitalAtRisk := price * contracts
  if capitalAtRisk ≤ 0 then .reject .zeroCapitalAtRisk
  else
    let edgeBps := edge / capitalAtRisk * 10000
    if edgeBps < cfg.risk.minEdgeAfterFeesBps then
      ⟨false, some (.edgeBelowMin edgeBps cfg.risk.minEdgeAfterFeesBps), contracts, fees, edge⟩
    else ⟨true, none, contracts, fees, edge⟩

def contractsFor (cfg : RiskConfig) (sizeDollars price : ℚ) : ℤ :=
  let contracts := if 0 < price then truncate (sizeDollars / price) else 0
  min contracts cfg.perOrderMaxContracts

/-- The Kelly sizing of a buy that opens contracts, cut to the two exposure caps. -/
def openingDecision (cfg : Config) (db : Db) (trade : Trade) : RiskDecision :=
  let price := trade.currentPrice
  let totalExp := currentTotalExposureDollars db
  if cfg.risk.maxTotalExposureUsd ≤ totalExp then .reject .maxTotalExposureExceeded
  else
    let p := if trade.side = .yes then trade.modelProbability else 1 - trade.modelProbability
    let denom := 1 - price
    let edgePerDollar := p - price
    if edgePerDollar ≤ 0 then .reject .noEdge
    else
      let kelly := edgePerDollar / denom
      let kellyCapped := min (kelly * cfg.risk.kellyFraction * trade.confidence)
        cfg.risk.maxKellySizePctBankroll
      if kellyCapped ≤ 0 then .reject .kellyZeroOrNegative
      else
        let usedForMarket := currentPositionExposureDollars db trade.marketTicker
        let remainingForMarket := cfg.risk.maxPositionPerMarketUsd - usedForMarket
        if remainingForMarket ≤ 0 then .reject .perMarketCapFull
        else
          let remainingGlobal := cfg.risk.maxTotalExposureUsd - totalExp
          let sizeDollars :=
            min (min (kellyCapped * trade.bankrollDollars) remainingForMarket) remainingGlobal
          let contracts := contractsFor cfg.risk sizeDollars price
          if contracts ≤ 0 then .reject .sizeBelowOneContract
          else edgeDecision cfg trade contracts

def sizeTrade (cfg : Config) (db : Db) (trade : Trade) : RiskDecision :=
  match db.positions.find trade.marketTicker with
  | none => openingDecision cfg db trade
  | some existing =>
    if 0 < existing.count ∧ existing.side ≠ trade.side then closingDecision cfg trade existing
    else openingDecision cfg db trade

/-- The whitelist gates: the reason to reject, if there is one. The categories of the whitelist are
ASCII, so that `lower` finds them as `str.lower` does. -/
def notWhitelisted (cfg : MarketsConfig) (trade : Trade) : Option RiskReason :=
  if cfg.whitelistTickers ≠ [] ∧ trade.marketTicker ∉ cfg.whitelistTickers then
    some .tickerNotWhitelisted
  else if cfg.whitelistCategories ≠ [] ∧
      lower (trade.marketCategory.getD "") ∉ cfg.whitelistCategories.map lower then
    some (.categoryNotWhitelisted trade.marketCategory)
  else none

def checkTrade (cfg : Config) (db : Db) (kill : KillSwitch) (st : RiskState) (clock : Clock)
    (trade : Trade) : KillSwitch × RiskDecision :=
  if kill.isEngaged then (kill, .reject .killSwitchEngaged)
  else
    match notWhitelisted cfg.markets trade with
    | some reason => (kill, .reject reason)
    | none =>
      let orders := ordersInLastMinute st clock
      if cfg.risk.maxOrdersPerMinute ≤ orders then
        (kill.engage (.runawayOrderRate orders) "risk_monitor", .reject .maxOrdersPerMinuteExceeded)
      else
        let dailyPnl := dailyRealizedPnlDollars cfg.displayTimezone db clock
        if dailyPnl ≤ -cfg.risk.maxDailyLossUsd then
          (kill.engage (.dailyLossBreach dailyPnl) "risk_monitor", .reject .maxDailyLossExceeded)
        else if trade.currentPrice ≤ 0 ∨ 1 ≤ trade.currentPrice then (kill, .reject .priceAtExtremum)
        else (kill, sizeTrade cfg db trade)

def runBackgroundTick (cfg : Config) (db : Db) (kill : KillSwitch) (clock : Clock) : KillSwitch :=
  if kill.isEngaged then kill
  else
    let totalExp := currentTotalExposureDollars db
    let kill := if cfg.risk.maxTotalExposureUsd < totalExp then
      kill.engage (.postHocExposureBreach totalExp) "risk_monitor" else kill
    let daily := dailyRealizedPnlDollars cfg.displayTimezone db clock
    if daily ≤ -cfg.risk.maxDailyLossUsd then kill.engage (.postHocDailyLoss daily) "risk_monitor"
    else kill

theorem edgeDecision_allowed {cfg : Config} {trade : Trade} {contracts : ℤ}
    (h : (edgeDecision cfg trade contracts).allowed = true) :
    (edgeDecision cfg trade contracts).sizedContracts = contracts := by
  unfold edgeDecision at h ⊢
  dsimp only at h ⊢
  split_ifs at h ⊢ <;> first | rfl | exact absurd h Bool.false_ne_true

theorem contractsFor_cost {cfg : RiskConfig} {sizeDollars price : ℚ} (hprice : 0 < price)
    (h : 0 < contractsFor cfg sizeDollars price) :
    price * contractsFor cfg sizeDollars price ≤ sizeDollars := by
  unfold contractsFor at h ⊢
  dsimp only at h ⊢
  rw [if_pos hprice] at h ⊢
  have htrunc : 0 < truncate (sizeDollars / price) := h.trans_le (min_le_left _ _)
  have hquot : 0 ≤ sizeDollars / price := by
    by_contra hneg
    exact absurd (truncate_nonpos (not_le.mp hneg).le) (not_le.mpr htrunc)
  calc price * ((min (truncate (sizeDollars / price)) cfg.perOrderMaxContracts : ℤ) : ℚ)
      ≤ price * (truncate (sizeDollars / price) : ℤ) := by
        gcongr
        exact min_le_left _ _
    _ ≤ price * (sizeDollars / price) := by
        gcongr
        exact truncate_le hquot
    _ = sizeDollars := mul_div_cancel₀ _ hprice.ne'

theorem openingDecision_allowed {cfg : Config} {db : Db} {trade : Trade}
    (hprice : 0 < trade.currentPrice) (h : (openingDecision cfg db trade).allowed = true) :
    0 < (openingDecision cfg db trade).sizedContracts ∧
      currentTotalExposureDollars db +
          trade.currentPrice * (openingDecision cfg db trade).sizedContracts ≤
        cfg.risk.maxTotalExposureUsd := by
  unfold openingDecision at h ⊢
  dsimp only at h ⊢
  generalize (if trade.side = .yes then trade.modelProbability else 1 - trade.modelProbability) = p
    at h ⊢
  split_ifs at h ⊢ with hcap hedge hkelly hmarket hsize <;>
    try exact absurd h Bool.false_ne_true
  rw [edgeDecision_allowed h]
  rw [not_le] at hsize
  have hcost := (contractsFor_cost hprice hsize).trans (min_le_right _ _)
  exact ⟨hsize, by linarith⟩

theorem checkTrade_allowed {cfg : Config} {db : Db} {kill : KillSwitch} {st : RiskState}
    {clock : Clock} {trade : Trade} (h : (checkTrade cfg db kill st clock trade).2.allowed = true) :
    kill.isEngaged = false ∧ (checkTrade cfg db kill st clock trade).1 = kill ∧
      0 < trade.currentPrice ∧ trade.currentPrice < 1 ∧
      (checkTrade cfg db kill st clock trade).2 = sizeTrade cfg db trade := by
  unfold checkTrade at h ⊢
  cases hkill : kill.isEngaged with
  | true => simp [hkill, RiskDecision.reject] at h
  | false =>
    simp only [hkill, Bool.false_eq_true, if_false] at h ⊢
    cases hwhite : notWhitelisted cfg.markets trade with
    | some reason => simp [hwhite, RiskDecision.reject] at h
    | none =>
      simp only [hwhite] at h ⊢
      split_ifs at h ⊢ with hrate hloss hprice <;> try exact absurd h Bool.false_ne_true
      rw [not_or, not_le, not_le] at hprice
      exact ⟨trivial, rfl, hprice.1, hprice.2, rfl⟩

theorem checkTrade_sizes {cfg : Config} {db : Db} {kill : KillSwitch} {st : RiskState}
    {clock : Clock} {trade : Trade} (hkill : kill.isEngaged = false)
    (hwhite : notWhitelisted cfg.markets trade = none)
    (hrate : (ordersInLastMinute st clock : ℤ) < cfg.risk.maxOrdersPerMinute)
    (hloss : -cfg.risk.maxDailyLossUsd < dailyRealizedPnlDollars cfg.displayTimezone db clock)
    (hprice : 0 < trade.currentPrice ∧ trade.currentPrice < 1) :
    checkTrade cfg db kill st clock trade = (kill, sizeTrade cfg db trade) := by
  have hextremum : ¬ (trade.currentPrice ≤ 0 ∨ 1 ≤ trade.currentPrice) := by
    rw [not_or, not_le, not_le]
    exact hprice
  simp only [checkTrade, hkill, hwhite, Bool.false_eq_true, if_false, if_neg (not_le.mpr hrate),
    if_neg (not_le.mpr hloss), if_neg hextremum]

theorem checkTrade_whitelisted {cfg : Config} {db : Db} {kill : KillSwitch} {st : RiskState}
    {clock : Clock} {trade : Trade} (h : (checkTrade cfg db kill st clock trade).2.allowed = true) :
    notWhitelisted cfg.markets trade = none := by
  cases hwhite : notWhitelisted cfg.markets trade with
  | none => rfl
  | some reason =>
    unfold checkTrade at h
    simp only [hwhite] at h
    split_ifs at h <;> exact absurd h Bool.false_ne_true

theorem checkTrade_engages_iff {cfg : Config} {db : Db} {kill : KillSwitch} {st : RiskState}
    {clock : Clock} {trade : Trade} (hkill : kill.isEngaged = false)
    (hwhite : notWhitelisted cfg.markets trade = none) :
    (checkTrade cfg db kill st clock trade).1.isEngaged = true ↔
      cfg.risk.maxOrdersPerMinute ≤ ordersInLastMinute st clock ∨
        dailyRealizedPnlDollars cfg.displayTimezone db clock ≤ -cfg.risk.maxDailyLossUsd := by
  unfold checkTrade
  simp only [hkill, hwhite, Bool.false_eq_true, if_false]
  split_ifs with hrate hloss hprice
  · exact iff_of_true (KillSwitch.isEngaged_engage _ _ _) (.inl hrate)
  · exact iff_of_true (KillSwitch.isEngaged_engage _ _ _) (.inr hloss)
  · exact iff_of_false (by simp [hkill]) (not_or.mpr ⟨hrate, hloss⟩)
  · exact iff_of_false (by simp [hkill]) (not_or.mpr ⟨hrate, hloss⟩)

/-- What an allowed sizing is: a buy of at most the held contracts of the other side, or
an opening order under the global cap. -/
theorem sizeTrade_allowed {cfg : Config} {db : Db} {trade : Trade}
    (hprice : 0 < trade.currentPrice) (h : (sizeTrade cfg db trade).allowed = true) :
    (∃ existing, db.positions.find trade.marketTicker = some existing ∧ 0 < existing.count ∧
        existing.side ≠ trade.side ∧ (sizeTrade cfg db trade).sizedContracts ≤ existing.count) ∨
      (0 < (sizeTrade cfg db trade).sizedContracts ∧
        currentTotalExposureDollars db +
            trade.currentPrice * (sizeTrade cfg db trade).sizedContracts ≤
          cfg.risk.maxTotalExposureUsd) := by
  unfold sizeTrade at h ⊢
  cases hfind : db.positions.find trade.marketTicker with
  | none =>
    rw [hfind] at h
    exact .inr (openingDecision_allowed hprice h)
  | some existing =>
    simp only [hfind] at h ⊢
    split_ifs at h ⊢ with hclosing
    · exact .inl ⟨existing, rfl, hclosing.1, hclosing.2, min_le_left _ _⟩
    · exact .inr (openingDecision_allowed hprice h)

theorem checkTrade_engages {cfg : Config} {db : Db} {clock : Clock} {trade : Trade}
    (hloss : dailyRealizedPnlDollars cfg.displayTimezone db clock ≤ -cfg.risk.maxDailyLossUsd)
    (hwhite : notWhitelisted cfg.markets trade = none) (kill : KillSwitch) (st : RiskState) :
    (checkTrade cfg db kill st clock trade).1.isEngaged = true := by
  cases hkill : kill.isEngaged with
  | true => simp [checkTrade, hkill]
  | false => exact (checkTrade_engages_iff hkill hwhite).mpr (.inr hloss)

theorem runBackgroundTick_engages {cfg : Config} {db : Db} {clock : Clock}
    (hloss : dailyRealizedPnlDollars cfg.displayTimezone db clock ≤ -cfg.risk.maxDailyLossUsd)
    (kill : KillSwitch) : (runBackgroundTick cfg db kill clock).isEngaged = true := by
  unfold runBackgroundTick
  cases hkill : kill.isEngaged with
  | true => simpa using hkill
  | false =>
    simp only [Bool.false_eq_true, if_false, if_pos hloss]
    exact KillSwitch.isEngaged_engage _ _ _

end KalshiAgent
