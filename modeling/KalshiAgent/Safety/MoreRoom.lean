import KalshiAgent.Safety.Sizing

/-! Two sizings compared. Whether an edge is worth its fees does not depend on how many contracts
carry it, so a check that has more room than another one allows what the other one allows. -/

namespace KalshiAgent
open Rounding

/-- Two checks that read the same, but for a bankroll and a confidence that are no smaller in the
second one and exposures that are no larger. -/
structure MoreRoom (cfg : Config) (clock : Clock) (db db' : Db) (trade trade' : Trade) : Prop where
  marketTicker : trade'.marketTicker = trade.marketTicker
  side : trade'.side = trade.side
  modelProbability : trade'.modelProbability = trade.modelProbability
  currentPrice : trade'.currentPrice = trade.currentPrice
  marketCategory : trade'.marketCategory = trade.marketCategory
  confidence_le : trade.confidence ≤ trade'.confidence
  bankroll_le : trade.bankrollDollars ≤ trade'.bankrollDollars
  market_le : currentPositionExposureDollars db' trade.marketTicker ≤
    currentPositionExposureDollars db trade.marketTicker
  total_le : currentTotalExposureDollars db' ≤ currentTotalExposureDollars db
  dailyPnl : dailyRealizedPnlDollars cfg.displayTimezone db' clock =
    dailyRealizedPnlDollars cfg.displayTimezone db clock

structure OpeningGates (cfg : RiskConfig) (db : Db) (trade : Trade) : Prop where
  total : currentTotalExposureDollars db < cfg.maxTotalExposureUsd
  edge : 0 < trade.winProbability - trade.currentPrice
  kelly : 0 < (trade.winProbability - trade.currentPrice) / (1 - trade.currentPrice) *
    cfg.kellyFraction * trade.confidence
  market : currentPositionExposureDollars db trade.marketTicker < cfg.maxPositionPerMarketUsd
  size : 0 < contractsFor cfg (openingDollars cfg db trade) trade.currentPrice

theorem contractsFor_mono (cfg : RiskConfig) {size size' price : ℚ} (hprice : 0 < price)
    (h : size ≤ size') : contractsFor cfg size price ≤ contractsFor cfg size' price := by
  unfold contractsFor
  dsimp only
  rw [if_pos hprice, if_pos hprice]
  apply min_le_min_right
  apply truncate_mono
  exact div_le_div_of_nonneg_right h hprice.le

section Opening
variable {cfg : Config} {db db' : Db} {trade trade' : Trade}

theorem openingDecision_eq (h : OpeningGates cfg.risk db trade) :
    openingDecision cfg db trade = edgeDecision cfg trade
      (contractsFor cfg.risk (openingDollars cfg.risk db trade) trade.currentPrice) := by
  have hwin : (if trade.side = .yes then trade.modelProbability else 1 - trade.modelProbability) =
      trade.winProbability := rfl
  have hkelly := lt_min h.kelly cfg.risk.maxKellySize_mem.1
  have hmarket := sub_pos.mpr h.market
  have hsize := h.size
  unfold openingDollars at hsize
  unfold openingDecision
  dsimp only at hsize ⊢
  rw [hwin, if_neg (not_le.mpr h.total), if_neg (not_le.mpr h.edge), if_neg (not_le.mpr hkelly),
    if_neg (not_le.mpr hmarket), if_neg (not_le.mpr hsize)]
  rfl

theorem openingGates_of_allowed (h : (openingDecision cfg db trade).allowed = true) :
    OpeningGates cfg.risk db trade := by
  have hsize := (openingDecision_sizes h).1
  have hwin : (if trade.side = .yes then trade.modelProbability else 1 - trade.modelProbability) =
      trade.winProbability := rfl
  unfold openingDecision at h
  dsimp only at h
  rw [hwin] at h
  split_ifs at h with htotal hedge hkelly hmarket hcontracts <;>
    first | exact absurd h Bool.false_ne_true | skip
  rw [not_le] at htotal hedge hkelly hmarket
  exact ⟨htotal, hedge, hkelly.trans_le (min_le_left _ _), sub_pos.mp hmarket, hsize⟩

/-- The edge gate looks at one contract: the dollars at risk and the dollars expected grow alike. -/
theorem edgeDecision_allowed_iff {n : ℤ} (hprice : 0 < trade.currentPrice) (hn : 0 < n) :
    (edgeDecision cfg trade n).allowed = true ↔
      (cfg.risk.minEdgeAfterFeesBps : ℚ) ≤
        edgeAfterFeesDollars 1 trade.modelProbability trade.currentPrice trade.side
          cfg.fees.assumeTaker cfg.fees.takerRate / trade.currentPrice * 10000 := by
  have hn' : (0 : ℚ) < n := Int.cast_pos.mpr hn
  have hcapital : 0 < trade.currentPrice * n := mul_pos hprice hn'
  have hscale : edgeAfterFeesDollars n trade.modelProbability trade.currentPrice trade.side
      cfg.fees.assumeTaker cfg.fees.takerRate / (trade.currentPrice * n) =
      edgeAfterFeesDollars 1 trade.modelProbability trade.currentPrice trade.side
        cfg.fees.assumeTaker cfg.fees.takerRate / trade.currentPrice := by
    unfold edgeAfterFeesDollars totalFeeDollars
    dsimp only
    push_cast
    field_simp
  unfold edgeDecision
  dsimp only
  rw [if_neg (not_le.mpr hcapital), hscale]
  split_ifs with hmin
  · exact iff_of_false id (not_le.mpr hmin)
  · exact iff_of_true rfl (not_lt.mp hmin)

theorem OpeningGates.bankroll_pos (h : OpeningGates cfg.risk db trade)
    (hprice : 0 < trade.currentPrice) : 0 < trade.bankrollDollars := by
  have hcost := contractsFor_cost hprice h.size
  have hspent : 0 < trade.currentPrice *
      contractsFor cfg.risk (openingDollars cfg.risk db trade) trade.currentPrice :=
    mul_pos hprice (Int.cast_pos.mpr h.size)
  have hdollars : 0 < openingDollars cfg.risk db trade := hspent.trans_le hcost
  unfold openingDollars at hdollars
  dsimp only at hdollars
  have hkelly := lt_min h.kelly cfg.risk.maxKellySize_mem.1
  exact pos_of_mul_pos_right (hdollars.trans_le ((min_le_left _ _).trans (min_le_left _ _))) hkelly.le

variable {clock : Clock} (hroom : MoreRoom cfg clock db db' trade trade')
include hroom

theorem MoreRoom.winProbability : trade'.winProbability = trade.winProbability := by
  unfold Trade.winProbability
  rw [hroom.side, hroom.modelProbability]

theorem MoreRoom.kelly_le (hgates : OpeningGates cfg.risk db trade) (hprice : trade.currentPrice < 1) :
    (trade.winProbability - trade.currentPrice) / (1 - trade.currentPrice) *
        cfg.risk.kellyFraction * trade.confidence ≤
      (trade'.winProbability - trade'.currentPrice) / (1 - trade'.currentPrice) *
        cfg.risk.kellyFraction * trade'.confidence := by
  rw [hroom.winProbability, hroom.currentPrice]
  apply mul_le_mul_of_nonneg_left hroom.confidence_le
  exact mul_nonneg (div_nonneg hgates.edge.le (sub_pos.mpr hprice).le) cfg.risk.kellyFraction_mem.1.le

theorem MoreRoom.openingDollars_le (hgates : OpeningGates cfg.risk db trade)
    (hprice : 0 < trade.currentPrice ∧ trade.currentPrice < 1) :
    openingDollars cfg.risk db trade ≤ openingDollars cfg.risk db' trade' := by
  have hkelly := hroom.kelly_le hgates hprice.2
  have hbankroll := hgates.bankroll_pos hprice.1
  have hcapped := lt_min (hgates.kelly.trans_le hkelly) cfg.risk.maxKellySize_mem.1
  unfold openingDollars
  dsimp only
  apply min_le_min
  · apply min_le_min
    · exact mul_le_mul (min_le_min_right _ hkelly) hroom.bankroll_le hbankroll.le hcapped.le
    · rw [hroom.marketTicker]
      exact sub_le_sub_left hroom.market_le _
  · exact sub_le_sub_left hroom.total_le _

theorem MoreRoom.openingGates (hgates : OpeningGates cfg.risk db trade)
    (hprice : 0 < trade.currentPrice ∧ trade.currentPrice < 1) :
    OpeningGates cfg.risk db' trade' := by
  have hdollars := hroom.openingDollars_le hgates hprice
  constructor
  · exact hroom.total_le.trans_lt hgates.total
  · rw [hroom.winProbability, hroom.currentPrice]
    exact hgates.edge
  · exact hgates.kelly.trans_le (hroom.kelly_le hgates hprice.2)
  · rw [hroom.marketTicker]
    exact hroom.market_le.trans_lt hgates.market
  · rw [hroom.currentPrice]
    exact hgates.size.trans_le (contractsFor_mono _ hprice.1 hdollars)

theorem MoreRoom.allows (hprice : 0 < trade.currentPrice ∧ trade.currentPrice < 1)
    (h : (openingDecision cfg db trade).allowed = true) :
    (openingDecision cfg db' trade').allowed = true ∧
      (openingDecision cfg db trade).sizedContracts ≤
        (openingDecision cfg db' trade').sizedContracts := by
  have hgates := openingGates_of_allowed h
  have hgates' := hroom.openingGates hgates hprice
  have hdollars := hroom.openingDollars_le hgates hprice
  have hprice' : 0 < trade'.currentPrice := hroom.currentPrice.symm ▸ hprice.1
  rw [openingDecision_eq hgates] at h ⊢
  rw [openingDecision_eq hgates']
  have hedge := (edgeDecision_allowed_iff hprice.1 hgates.size).mp h
  have hallowed : (edgeDecision cfg trade' (contractsFor cfg.risk
      (openingDollars cfg.risk db' trade') trade'.currentPrice)).allowed = true := by
    rw [edgeDecision_allowed_iff hprice' hgates'.size, hroom.currentPrice, hroom.modelProbability,
      hroom.side]
    exact hedge
  refine ⟨hallowed, ?_⟩
  rw [edgeDecision_allowed h, edgeDecision_allowed hallowed, hroom.currentPrice]
  exact contractsFor_mono _ hprice.1 hdollars

theorem MoreRoom.notWhitelisted_eq :
    notWhitelisted cfg.markets trade' = notWhitelisted cfg.markets trade := by
  unfold notWhitelisted
  rw [hroom.marketTicker, hroom.marketCategory]

end Opening

/-- Sizing is monotone: with more room an opening trade that is allowed stays allowed, with at
least as many contracts. -/
theorem checkTrade_mono {cfg : Config} {db db' : Db} {kill : KillSwitch} {st : RiskState}
    {clock : Clock} {trade trade' : Trade} (hroom : MoreRoom cfg clock db db' trade trade')
    (hopens : trade.Opens db) (hopens' : trade'.Opens db')
    (h : (checkTrade cfg db kill st clock trade).2.allowed = true) :
    (checkTrade cfg db' kill st clock trade').2.allowed = true ∧
      (checkTrade cfg db kill st clock trade).2.sizedContracts ≤
        (checkTrade cfg db' kill st clock trade').2.sizedContracts := by
  obtain ⟨hkill, hsame, hlow, hhigh, hsize⟩ := checkTrade_allowed h
  have hwhite := checkTrade_whitelisted h
  have hquiet : ¬ (checkTrade cfg db kill st clock trade).1.isEngaged = true := by
    rw [hsame, hkill]
    exact Bool.false_ne_true
  rw [checkTrade_engages_iff hkill hwhite] at hquiet
  obtain ⟨hrate, hloss⟩ := not_or.mp hquiet
  have hsize' : checkTrade cfg db' kill st clock trade' = (kill, sizeTrade cfg db' trade') := by
    apply checkTrade_sizes hkill (hroom.notWhitelisted_eq.trans hwhite) (not_le.mp hrate)
    · rw [hroom.dailyPnl]
      exact not_le.mp hloss
    · rw [hroom.currentPrice]
      exact ⟨hlow, hhigh⟩
  rw [hsize, sizeTrade_opening cfg hopens] at h ⊢
  rw [hsize', sizeTrade_opening cfg hopens']
  exact hroom.allows ⟨hlow, hhigh⟩ h

theorem checkTrade_mono_twiceTheBankroll :
    let cfg := Config.example (.fixed 0)
    let trade : Trade := ⟨"KXFED-25DEC", .yes, 4 / 5, 1 / 2, 1 / 2, 100, none⟩
    let trade' : Trade := ⟨"KXFED-25DEC", .yes, 4 / 5, 1 / 2, 3 / 4, 200, none⟩
    (checkTrade cfg .empty ⟨none⟩ .start ⟨0, 0⟩ trade).2.allowed = true ∧
      (checkTrade cfg .empty ⟨none⟩ .start ⟨0, 0⟩ trade').2.allowed = true ∧
      (checkTrade cfg .empty ⟨none⟩ .start ⟨0, 0⟩ trade).2.sizedContracts ≤
        (checkTrade cfg .empty ⟨none⟩ .start ⟨0, 0⟩ trade').2.sizedContracts := by
  refine ⟨by decide +kernel, ?_⟩
  refine checkTrade_mono ?_ (fun _ h => absurd h (by simp [Db.empty]))
    (fun _ h => absurd h (by simp [Db.empty])) (by decide +kernel)
  constructor <;> first | rfl | exact le_rfl | decide +kernel

end KalshiAgent
