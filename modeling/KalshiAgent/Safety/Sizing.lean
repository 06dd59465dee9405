import KalshiAgent.Safety.RiskMonitor

/-! What an opening order's size is: four dollar caps and a contract cap bound it, and one
contract more would break one of them. -/

namespace KalshiAgent
open Rounding

def Trade.winProbability (trade : Trade) : ℚ :=
  if trade.side = .yes then trade.modelProbability else 1 - trade.modelProbability

def Trade.Opens (trade : Trade) (db : Db) : Prop :=
  ∀ existing, db.positions.find trade.marketTicker = some existing →
    ¬ (0 < existing.count ∧ existing.side ≠ trade.side)

def dollarCaps (cfg : RiskConfig) (db : Db) (trade : Trade) : List ℚ :=
  [cfg.maxKellySizePctBankroll * trade.bankrollDollars,
   cfg.kellyFraction * trade.confidence *
    ((trade.winProbability - trade.currentPrice) / (1 - trade.currentPrice)) * trade.bankrollDollars,
   cfg.maxPositionPerMarketUsd - currentPositionExposureDollars db trade.marketTicker,
   cfg.maxTotalExposureUsd - currentTotalExposureDollars db]

/-- A decision that spends as much as the caps allow, at an edge worth it. -/
structure RiskDecision.Sized (d : RiskDecision) (cfg : Config) (db : Db) (trade : Trade) : Prop where
  price_mem : 0 < trade.currentPrice ∧ trade.currentPrice < 1
  contracts_mem : 1 ≤ d.sizedContracts ∧ d.sizedContracts ≤ cfg.risk.perOrderMaxContracts
  cost_le : ∀ cap ∈ dollarCaps cfg.risk db trade, d.sizedContracts * trade.currentPrice ≤ cap
  edge_eq : d.expectedEdgeDollars =
    d.sizedContracts * (trade.winProbability - trade.currentPrice) - d.expectedFeesDollars
  edge_ge : (cfg.risk.minEdgeAfterFeesBps : ℚ) / 10000 * (d.sizedContracts * trade.currentPrice) ≤
    d.expectedEdgeDollars
  maximal : d.sizedContracts = cfg.risk.perOrderMaxContracts ∨
    ∃ cap ∈ dollarCaps cfg.risk db trade, cap < (d.sizedContracts + 1) * trade.currentPrice

theorem contractsFor_maximal {cfg : RiskConfig} {sizeDollars price : ℚ} (hprice : 0 < price)
    (h : 0 < contractsFor cfg sizeDollars price) :
    contractsFor cfg sizeDollars price = cfg.perOrderMaxContracts ∨
      sizeDollars < (contractsFor cfg sizeDollars price + 1) * price := by
  unfold contractsFor at h ⊢
  dsimp only at h ⊢
  rw [if_pos hprice] at h ⊢
  rcases le_total cfg.perOrderMaxContracts (truncate (sizeDollars / price)) with hmax | hmax
  · exact .inl (min_eq_right hmax)
  · rw [min_eq_left hmax] at h ⊢
    have hquot : 0 ≤ sizeDollars / price := by
      by_contra hneg
      exact absurd (truncate_nonpos (not_le.mp hneg).le) (not_le.mpr h)
    exact .inr ((div_lt_iff₀ hprice).mp (lt_truncate_add_one hquot))

theorem contractsFor_le (cfg : RiskConfig) (sizeDollars price : ℚ) :
    contractsFor cfg sizeDollars price ≤ cfg.perOrderMaxContracts := min_le_right _ _

def openingDollars (cfg : RiskConfig) (db : Db) (trade : Trade) : ℚ :=
  let kelly := (trade.winProbability - trade.currentPrice) / (1 - trade.currentPrice)
  let kellyCapped := min (kelly * cfg.kellyFraction * trade.confidence) cfg.maxKellySizePctBankroll
  min (min (kellyCapped * trade.bankrollDollars)
      (cfg.maxPositionPerMarketUsd - currentPositionExposureDollars db trade.marketTicker))
    (cfg.maxTotalExposureUsd - currentTotalExposureDollars db)

theorem openingDollars_le {cfg : RiskConfig} {db : Db} {trade : Trade}
    (hbankroll : 0 ≤ trade.bankrollDollars) {cap : ℚ} (hcap : cap ∈ dollarCaps cfg db trade) :
    openingDollars cfg db trade ≤ cap := by
  simp only [dollarCaps, List.mem_cons, List.not_mem_nil, or_false] at hcap
  unfold openingDollars
  dsimp only
  rcases hcap with rfl | rfl | rfl | rfl
  · apply ((min_le_left _ _).trans (min_le_left _ _)).trans
    exact mul_le_mul_of_nonneg_right (min_le_right _ _) hbankroll
  · apply ((min_le_left _ _).trans (min_le_left _ _)).trans
    apply (mul_le_mul_of_nonneg_right (min_le_left _ _) hbankroll).trans_eq
    ring
  · exact (min_le_left _ _).trans (min_le_right _ _)
  · exact min_le_right _ _

theorem openingDollars_mem (cfg : RiskConfig) (db : Db) (trade : Trade) :
    openingDollars cfg db trade ∈ dollarCaps cfg db trade := by
  simp only [dollarCaps, List.mem_cons, List.not_mem_nil, or_false]
  unfold openingDollars
  dsimp only
  generalize hkelly : (trade.winProbability - trade.currentPrice) / (1 - trade.currentPrice) = kelly
  rcases min_choice (min (min (kelly * cfg.kellyFraction * trade.confidence)
      cfg.maxKellySizePctBankroll * trade.bankrollDollars)
    (cfg.maxPositionPerMarketUsd - currentPositionExposureDollars db trade.marketTicker))
    (cfg.maxTotalExposureUsd - currentTotalExposureDollars db) with h | h
  · rw [h]
    rcases min_choice (min (kelly * cfg.kellyFraction * trade.confidence)
        cfg.maxKellySizePctBankroll * trade.bankrollDollars)
      (cfg.maxPositionPerMarketUsd - currentPositionExposureDollars db trade.marketTicker) with h | h
    · rw [h]
      rcases min_choice (kelly * cfg.kellyFraction * trade.confidence)
          cfg.maxKellySizePctBankroll with h | h
      · rw [h]
        exact .inr (.inl (by ring))
      · rw [h]
        exact .inl rfl
    · exact .inr (.inr (.inl h))
  · exact .inr (.inr (.inr h))

theorem openingDecision_sizes {cfg : Config} {db : Db} {trade : Trade}
    (h : (openingDecision cfg db trade).allowed = true) :
    0 < contractsFor cfg.risk (openingDollars cfg.risk db trade) trade.currentPrice ∧
      openingDecision cfg db trade = edgeDecision cfg trade
        (contractsFor cfg.risk (openingDollars cfg.risk db trade) trade.currentPrice) := by
  have hwin : (if trade.side = .yes then trade.modelProbability else 1 - trade.modelProbability) =
      trade.winProbability := rfl
  unfold openingDecision at h ⊢
  dsimp only at h ⊢
  rw [hwin] at h ⊢
  split_ifs at h ⊢ with hcap hedge hkelly hmarket hsize <;>
    first | exact absurd h Bool.false_ne_true | exact ⟨not_le.mp hsize, rfl⟩

theorem edgeDecision_edge {cfg : Config} {trade : Trade} {contracts : ℤ}
    (h : (edgeDecision cfg trade contracts).allowed = true) :
    (edgeDecision cfg trade contracts).expectedEdgeDollars =
        contracts * (trade.winProbability - trade.currentPrice) -
          (edgeDecision cfg trade contracts).expectedFeesDollars ∧
      (cfg.risk.minEdgeAfterFeesBps : ℚ) / 10000 * (contracts * trade.currentPrice) ≤
        (edgeDecision cfg trade contracts).expectedEdgeDollars := by
  unfold edgeDecision at h ⊢
  dsimp only at h ⊢
  split_ifs at h ⊢ with hcapital hedge <;> try exact absurd h Bool.false_ne_true
  rw [not_le] at hcapital
  rw [not_lt] at hedge
  constructor
  · unfold edgeAfterFeesDollars Trade.winProbability
    ring
  · have hscaled : (cfg.risk.minEdgeAfterFeesBps : ℚ) / 10000 ≤ _ :=
      (div_le_iff₀ (by norm_num)).mpr hedge
    rw [le_div_iff₀ hcapital] at hscaled
    rwa [mul_comm (contracts : ℚ)]

theorem openingDecision_sized {cfg : Config} {db : Db} {trade : Trade}
    (hprice : 0 < trade.currentPrice ∧ trade.currentPrice < 1) (hbankroll : 0 < trade.bankrollDollars)
    (h : (openingDecision cfg db trade).allowed = true) :
    (openingDecision cfg db trade).Sized cfg db trade := by
  obtain ⟨hcontracts, heq⟩ := openingDecision_sizes h
  rw [heq] at h ⊢
  have hedge := edgeDecision_edge h
  have hn := edgeDecision_allowed h
  generalize edgeDecision cfg trade _ = d at hedge hn ⊢
  generalize hm : contractsFor cfg.risk (openingDollars cfg.risk db trade) trade.currentPrice = n
    at hcontracts hedge hn
  subst hn
  constructor
  · exact hprice
  · exact ⟨hcontracts, hm ▸ contractsFor_le _ _ _⟩
  · intro cap hcap
    have hcost := contractsFor_cost hprice.1 (hm.symm ▸ hcontracts)
    rw [hm, mul_comm] at hcost
    exact hcost.trans (openingDollars_le hbankroll.le hcap)
  · exact hedge.1
  · exact hedge.2
  · have hmax := contractsFor_maximal hprice.1 (hm.symm ▸ hcontracts)
    rw [hm] at hmax
    exact hmax.imp id fun hlt => ⟨_, openingDollars_mem _ _ _, hlt⟩

theorem sizeTrade_opening (cfg : Config) {db : Db} {trade : Trade} (hopens : trade.Opens db) :
    sizeTrade cfg db trade = openingDecision cfg db trade := by
  unfold sizeTrade
  cases hfind : db.positions.find trade.marketTicker with
  | none => rfl
  | some existing => exact if_neg (hopens existing hfind)

/-- Sizing is sound and tight, for every opening trade that is allowed. -/
theorem checkTrade_sized {cfg : Config} {db : Db} {kill : KillSwitch} {st : RiskState}
    {clock : Clock} {trade : Trade} (hbankroll : 0 < trade.bankrollDollars) (hopens : trade.Opens db)
    (h : (checkTrade cfg db kill st clock trade).2.allowed = true) :
    (checkTrade cfg db kill st clock trade).2.Sized cfg db trade := by
  obtain ⟨_, _, hlow, hhigh, hsize⟩ := checkTrade_allowed h
  rw [hsize, sizeTrade_opening cfg hopens] at h ⊢
  exact openingDecision_sized ⟨hlow, hhigh⟩ hbankroll h

theorem checkTrade_sized_nothingHeld :
    let cfg := Config.example (.fixed 0)
    let trade : Trade := ⟨"KXFED-25DEC", .yes, 4 / 5, 1 / 2, 1 / 2, 100, none⟩
    let check := checkTrade cfg .empty ⟨none⟩ .start ⟨0, 0⟩ trade
    check.2.allowed = true ∧ check.2.sizedContracts = 10 ∧ check.2.Sized cfg .empty trade :=
  ⟨by decide +kernel, by decide +kernel,
    checkTrade_sized (by decide +kernel) (fun _ h => absurd h (by simp [Db.empty])) (by decide +kernel)⟩

end KalshiAgent
