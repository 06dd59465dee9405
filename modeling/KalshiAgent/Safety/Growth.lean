import KalshiAgent.Lib.Kelly
import KalshiAgent.Safety.Sizing

/-! What the Kelly sizing is for: an opening order buys no more contracts than make the bankroll grow
fastest, so none of them costs growth. Fees are left out, as they are in the sizing. -/

namespace KalshiAgent

/-- The growth of the bankroll that a trade expects of so many contracts. -/
noncomputable def Trade.growth (trade : Trade) (contracts : ℝ) : ℝ :=
  Kelly.growth trade.winProbability trade.currentPrice trade.bankrollDollars contracts

theorem Trade.winProbability_mem {trade : Trade}
    (hprob : 0 ≤ trade.modelProbability ∧ trade.modelProbability ≤ 1) :
    0 ≤ trade.winProbability ∧ trade.winProbability ≤ 1 := by
  unfold winProbability
  split_ifs
  · exact hprob
  · exact ⟨sub_nonneg.mpr hprob.2, sub_le_self 1 hprob.1⟩

/-- The second of the dollar caps is a part of what the full Kelly stake costs. -/
theorem RiskDecision.Sized.le_optimal {d : RiskDecision} {cfg : Config} {db : Db} {trade : Trade}
    (h : d.Sized cfg db trade) (hbankroll : 0 < trade.bankrollDollars)
    (hconf : 0 ≤ trade.confidence ∧ trade.confidence ≤ 1) :
    trade.currentPrice < trade.winProbability ∧
      (d.sizedContracts : ℚ) ≤ (trade.winProbability - trade.currentPrice) * trade.bankrollDollars /
        (trade.currentPrice * (1 - trade.currentPrice)) := by
  obtain ⟨hprice, hprice1⟩ := h.price_mem
  have hspread : 0 < 1 - trade.currentPrice := sub_pos.mpr hprice1
  have hpart : 0 ≤ cfg.risk.kellyFraction * trade.confidence :=
    mul_nonneg cfg.risk.kellyFraction_mem.1.le hconf.1
  have hpart1 : cfg.risk.kellyFraction * trade.confidence ≤ 1 :=
    mul_le_one₀ cfg.risk.kellyFraction_mem.2 hconf.1 hconf.2
  have hcost := h.cost_le (cfg.risk.kellyFraction * trade.confidence *
    ((trade.winProbability - trade.currentPrice) / (1 - trade.currentPrice)) * trade.bankrollDollars)
    (by simp [dollarCaps])
  have hcontracts : (0 : ℚ) < d.sizedContracts := Int.cast_pos.mpr h.contracts_mem.1
  have hpaid : 0 < d.sizedContracts * trade.currentPrice := mul_pos hcontracts hprice
  generalize cfg.risk.kellyFraction * trade.confidence = part at hpart hpart1 hcost
  have hedge : 0 < (trade.winProbability - trade.currentPrice) / (1 - trade.currentPrice) := by
    by_contra hnone
    have hnothing : part * ((trade.winProbability - trade.currentPrice) / (1 - trade.currentPrice)) *
        trade.bankrollDollars ≤ 0 :=
      mul_nonpos_of_nonpos_of_nonneg
        (mul_nonpos_of_nonneg_of_nonpos hpart (not_lt.mp hnone)) hbankroll.le
    linarith
  constructor
  · exact sub_pos.mp ((div_pos_iff_of_pos_right hspread).mp hedge)
  · have hfull : d.sizedContracts * trade.currentPrice ≤ (trade.winProbability - trade.currentPrice) /
        (1 - trade.currentPrice) * trade.bankrollDollars := by
      apply hcost.trans
      apply mul_le_mul_of_nonneg_right _ hbankroll.le
      exact mul_le_of_le_one_left hedge.le hpart1
    rw [le_div_iff₀ (mul_pos hprice hspread), ← mul_assoc]
    apply (mul_le_mul_of_nonneg_right hfull hspread.le).trans_eq
    rw [mul_right_comm, div_mul_cancel₀ _ hspread.ne']

/-- An opening order that is allowed makes the bankroll grow: it buys no more than the best number of
contracts, and up to there each contract makes it grow faster. -/
theorem openingTrade_grows {cfg : Config} {db : Db} {kill : KillSwitch} {st : RiskState}
    {clock : Clock} {trade : Trade} (hbankroll : 0 < trade.bankrollDollars)
    (hprob : 0 ≤ trade.modelProbability ∧ trade.modelProbability ≤ 1)
    (hconf : 0 ≤ trade.confidence ∧ trade.confidence ≤ 1) (hopens : trade.Opens db)
    (h : (checkTrade cfg db kill st clock trade).2.allowed = true) :
    0 ≤ trade.growth (checkTrade cfg db kill st clock trade).2.sizedContracts ∧
      ∃ best : ℝ, ((checkTrade cfg db kill st clock trade).2.sizedContracts : ℝ) ≤ best ∧
      (∀ x : ℝ, 0 ≤ x → x * trade.currentPrice < trade.bankrollDollars →
        trade.growth x ≤ trade.growth best) ∧
      ∀ x y : ℝ, 0 ≤ x → x ≤ y → y ≤ best → trade.growth x ≤ trade.growth y := by
  obtain ⟨_, _, hlow, hhigh, hsize⟩ := checkTrade_allowed h
  rw [hsize, sizeTrade_opening cfg hopens] at h ⊢
  have hsized := openingDecision_sized ⟨hlow, hhigh⟩ hbankroll h
  obtain ⟨hedge, hle⟩ := hsized.le_optimal hbankroll hconf
  obtain ⟨hwin, hwin1⟩ := Trade.winProbability_mem hprob
  have hprice : (0 : ℝ) < trade.currentPrice := Rat.cast_pos.mpr hsized.price_mem.1
  have hprice1 : (trade.currentPrice : ℝ) < 1 := by exact_mod_cast hsized.price_mem.2
  have hb : (0 : ℝ) < trade.bankrollDollars := Rat.cast_pos.mpr hbankroll
  have hp : (0 : ℝ) ≤ trade.winProbability := Rat.cast_nonneg.mpr hwin
  have hp1 : (trade.winProbability : ℝ) ≤ 1 := by exact_mod_cast hwin1
  have hcp : (trade.currentPrice : ℝ) ≤ trade.winProbability := Rat.cast_le.mpr hedge.le
  have hbest : ((openingDecision cfg db trade).sizedContracts : ℝ) ≤
      Kelly.optimal trade.winProbability trade.currentPrice trade.bankrollDollars := by
    have hcast : ((_ : ℚ) : ℝ) ≤ ((_ : ℚ) : ℝ) := Rat.cast_le.mpr hle
    push_cast at hcast
    exact hcast
  have hcontracts : (0 : ℝ) ≤ (openingDecision cfg db trade).sizedContracts :=
    Int.cast_nonneg (le_of_lt hsized.contracts_mem.1)
  refine ⟨?_, Kelly.optimal trade.winProbability trade.currentPrice trade.bankrollDollars, hbest, ?_, ?_⟩
  · have hnothing : trade.growth 0 = 0 := Kelly.growth_zero hb
    rw [← hnothing]
    exact Kelly.growth_le_growth hprice hprice1 hb hp hp1 le_rfl hcontracts hbest
  · exact fun x hx hpaid => Kelly.growth_le_growth_optimal hprice hprice1 hb hcp hp1 hx hpaid
  · exact fun x y hx hxy hy => Kelly.growth_le_growth hprice hprice1 hb hp hp1 hx hxy hy

theorem openingTrade_grows_nothingHeld :
    let trade : Trade := ⟨"KXFED-25DEC", .yes, 4 / 5, 1 / 2, 1 / 2, 100, none⟩
    let decision := (checkTrade (.example (.fixed 0)) .empty ⟨none⟩ .start ⟨0, 0⟩ trade).2
    0 ≤ trade.growth decision.sizedContracts ∧ ∃ best : ℝ, (decision.sizedContracts : ℝ) ≤ best ∧
      (∀ x : ℝ, 0 ≤ x → x * trade.currentPrice < trade.bankrollDollars →
        trade.growth x ≤ trade.growth best) ∧
      ∀ x y : ℝ, 0 ≤ x → x ≤ y → y ≤ best → trade.growth x ≤ trade.growth y :=
  openingTrade_grows (by decide +kernel) (by decide +kernel) (by decide +kernel)
    (fun _ h => absurd h (by simp [Db.empty])) (by decide +kernel)

end KalshiAgent
