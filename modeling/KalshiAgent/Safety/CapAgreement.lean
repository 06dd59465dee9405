import KalshiAgent.Safety.Estimates

/-! The exposure cap before an order and after its fills. Sizing may use up what is left of the
cap, and each piece of a top-up rounds the average that the exposure is computed from, so the two
checks agree only where the roundings fit in what the order leaves. -/

namespace KalshiAgent

/-- The total exposure is within the cap, so a tick of the background task engages the switch
for no breach of it. -/
def KeepsCap (cfg : Config) (db : Db) : Prop :=
  currentTotalExposureDollars db ≤ cfg.risk.maxTotalExposureUsd ∧
    ∀ kill clock totalExp, kill.isEngaged = false →
      (runBackgroundTick cfg db kill clock).halt ≠
        some ⟨.postHocExposureBreach totalExp, "risk_monitor"⟩

/-- What the roundings of a row's average add to its exposure, over the pieces of an order. -/
def roundingLift (price : ℚ) : ℚ → ℤ → List ℤ → ℚ
  | _, _, [] => 0
  | avg, count, n :: ns =>
    let mean := bookedMean avg count price n
    let rounded := (priceDecimalToStr mean).toDecimal
    (rounded - mean) * ((count + n : ℤ) : ℚ) + roundingLift price rounded (count + n) ns

theorem keepsCap_iff (cfg : Config) (db : Db) :
    KeepsCap cfg db ↔ currentTotalExposureDollars db ≤ cfg.risk.maxTotalExposureUsd := by
  refine ⟨fun h => h.1, fun h => ⟨h, ?_⟩⟩
  intro kill clock totalExp hkill
  unfold runBackgroundTick
  rw [hkill]
  dsimp only
  rw [if_neg Bool.false_ne_true, if_neg (not_lt.mpr h)]
  obtain ⟨_ | halt⟩ := kill
  · split_ifs <;> simp [KillSwitch.engage]
  · simp [KillSwitch.isEngaged] at hkill

theorem mul_bookedMean (avg price : ℚ) {count n : ℤ} (h : count + n ≠ 0) :
    bookedMean avg count price n * ((count + n : ℤ) : ℚ) = avg * count + price * n :=
  div_mul_cancel₀ _ (by exact_mod_cast h)

theorem roundingLift_exact {price : ℚ} (hprice : FourPlaces price) {avg : ℚ} {count : ℤ} {ns : List ℤ}
    (hcount : 0 ≤ count) (hns : ∀ n ∈ ns, 1 ≤ n) (havg : avg = price ∨ count = 0) :
    roundingLift price avg count ns = 0 := by
  induction ns generalizing avg count with
  | nil => rfl
  | cons n ns ih =>
    have hn := hns n List.mem_cons_self
    have hne : ((count + n : ℤ) : ℚ) ≠ 0 := by exact_mod_cast (by omega : count + n ≠ 0)
    have hmean : bookedMean avg count price n = price := by
      rw [bookedMean, div_eq_iff hne]
      push_cast
      rcases havg with rfl | rfl
      · ring
      · push_cast
        ring
    have hrest : roundingLift price price (count + n) ns = 0 :=
      ih (by omega) (fun m hm => hns m (List.mem_cons_of_mem _ hm)) (.inl rfl)
    rw [roundingLift]
    simp only [hmean, toDecimal_priceDecimalToStr hprice, sub_self, zero_mul, hrest, add_zero]

theorem bookFills_exposure (rate : ℚ) {db : Db} {t : Ticker} {side : Side} {price : ℚ}
    {ds : List Arrival} {pos : Position} (h : OrderFills db t side price ds)
    (hrow : db.rowFor t side = pos) (hcount : 0 ≤ pos.count) (hside : pos.count = 0 ∨ pos.side = side) :
    ∃ db' δs, bookFills rate db ds = .ok (db', δs) ∧
      currentTotalExposureDollars db' = currentTotalExposureDollars db + price * filled ds +
        roundingLift price pos.avgPriceDollars.toDecimal pos.count
          (ds.map (fun a => a.fill.count)) := by
  induction ds generalizing db pos with
  | nil => exact ⟨db, [], rfl, by simp [roundingLift]⟩
  | cons a ds ih =>
    have hmem : a ∈ a :: ds := List.mem_cons_self
    have hn := h.history.count_pos a hmem
    have hfirst : db.rowFor t a.fill.side = pos := by rw [h.onSide a hmem, hrow]
    obtain ⟨moved, gross, hmoves, hticker, happ⟩ := h.history.books rate (by rwa [hfirst])
    rw [hfirst, h.atPrice a hmem] at hmoves
    rw [h.atPrice a hmem] at happ
    have hheld : pos.count = 0 ∨ pos.side = a.fill.side := by rwa [h.onSide a hmem]
    obtain ⟨hmovedSide, hmovedCount, hmovedAvg⟩ := hmoves.adds (h.buys a hmem) hheld hn
    have hnext : ∀ row δ, (db.recordFill row (moved.accrue δ)).rowFor t side = moved.accrue δ :=
      fun _ δ => rowFor_of_find (find_recordFill (hticker δ)) side
    obtain ⟨db', δs, hrun, hexposure⟩ := ih (h.tail _ _) (hnext _ _)
      (show 0 ≤ moved.count by omega)
      (.inr (hmovedSide.trans (h.onSide a hmem)))
    refine ⟨db', _, bookFills_cons_ok.mpr ⟨_, _, _, happ, hrun, rfl⟩, ?_⟩
    have hpos : db.positionFor a.fill = pos := by
      rw [positionFor_eq_rowFor, h.history.onTicker a hmem, hfirst]
    have hold : ∀ row δ, currentTotalExposureDollars (db.recordFill row (moved.accrue δ)) =
        currentTotalExposureDollars db + moved.exposure - pos.exposure := by
      intro row δ
      rw [recordFill_exposure ((hticker δ).trans (h.history.onTicker a hmem).symm), hpos]
      rfl
    have hmean := mul_bookedMean pos.avgPriceDollars.toDecimal price
      (show pos.count + a.fill.count ≠ 0 by omega)
    have hlift : roundingLift price (moved.accrue (gross -
          totalFeeDollars a.fill.count price a.fill.isTaker rate)).avgPriceDollars.toDecimal
        (moved.accrue (gross -
          totalFeeDollars a.fill.count price a.fill.isTaker rate)).count
        (ds.map (fun a => a.fill.count)) =
        roundingLift price (priceDecimalToStr (bookedMean pos.avgPriceDollars.toDecimal pos.count
          price a.fill.count)).toDecimal (pos.count + a.fill.count)
          (ds.map (fun a => a.fill.count)) := by
      unfold Position.accrue
      rw [hmovedAvg, hmovedCount]
    rw [hexposure, hold, hlift, List.map_cons, roundingLift, filled_cons]
    unfold Position.exposure
    rw [hmovedAvg, hmovedCount]
    push_cast at hmean ⊢
    linear_combination hmean

/-- The check before an opening order and the check after its fills agree exactly where the
roundings of the average fit in what the order leaves of the cap; on an empty row they agree. -/
theorem caps_agree_iff {cfg : Config} {db : Db} {kill : KillSwitch} {st : RiskState} {clock : Clock}
    {trade : Trade} {ds : List Arrival}
    (hallowed : (decisionFor cfg db kill st clock trade).allowed = true) (hopens : trade.Opens db)
    (hfour : FourPlaces trade.currentPrice) (hrows : ∀ p ∈ db.positions.rows, 0 ≤ p.count)
    (hds : OrderFills db trade.marketTicker trade.side trade.currentPrice ds)
    (hpart : filled ds ≤ (decisionFor cfg db kill st clock trade).sizedContracts) :
    let row := db.rowFor trade.marketTicker trade.side
    let left := cfg.risk.maxTotalExposureUsd -
      (currentTotalExposureDollars db + trade.currentPrice * filled ds)
    let lift := roundingLift trade.currentPrice row.avgPriceDollars.toDecimal row.count
      (ds.map (fun a => a.fill.count))
    0 ≤ left ∧ (row.count = 0 → lift = 0) ∧
      ∃ db' δs, bookFills cfg.fees.takerRate db ds = .ok (db', δs) ∧ (KeepsCap cfg db' ↔ lift ≤ left) := by
  intro row left lift
  obtain ⟨_, _, hlow, _, hsize⟩ := checkTrade_allowed hallowed
  unfold decisionFor at hpart
  have hopening := sizeTrade_opening cfg hopens
  rw [decisionFor, hsize, hopening] at hallowed
  rw [hsize, hopening] at hpart
  have hcap := (openingDecision_allowed hlow hallowed).2
  have hcost : trade.currentPrice * filled ds ≤
      trade.currentPrice * (openingDecision cfg db trade).sizedContracts := by
    gcongr
  have hrow : 0 ≤ row.count ∧ (row.count = 0 ∨ row.side = trade.side) := by
    show 0 ≤ (db.rowFor _ _).count ∧ ((db.rowFor _ _).count = 0 ∨ (db.rowFor _ _).side = _)
    unfold Db.rowFor
    cases hfind : db.positions.find trade.marketTicker with
    | none => exact ⟨le_rfl, .inl rfl⟩
    | some existing =>
      have hcount := hrows existing (KeyedTable.mem_of_find hfind)
      have hside := hopens existing hfind
      rw [Option.getD_some]
      refine ⟨hcount, ?_⟩
      by_contra hne
      obtain ⟨hheld, hother⟩ := not_or.mp hne
      exact hside ⟨hcount.lt_of_ne' hheld, hother⟩
  have hpieces : ∀ n ∈ ds.map (fun a => a.fill.count), 1 ≤ n := by
    intro n hn
    obtain ⟨a, ha, rfl⟩ := List.mem_map.mp hn
    exact hds.history.count_pos a ha
  obtain ⟨db', δs, hrun, hexposure⟩ := bookFills_exposure cfg.fees.takerRate hds rfl hrow.1 hrow.2
  refine ⟨by simp only [left]; linarith, ?_, db', δs, hrun, ?_⟩
  · intro hflat
    exact roundingLift_exact hfour hrow.1 hpieces (.inr hflat)
  · rw [keepsCap_iff, hexposure]
    constructor <;> intro h <;> simp only [lift, left] at h ⊢ <;> linarith

def fiveDollarCap : Config :=
  { Config.example (.fixed 0) with
    risk := { (Config.example (.fixed 0)).risk with maxTotalExposureUsd := 5 } }

def fortyCentsLeft : Db :=
  { Db.empty with positions :=
      (KeyedTable.empty.put ⟨"FOO", .yes, 10, ⟨4001⟩, 0⟩).put ⟨"BAR", .yes, 1, ⟨5990⟩, 0⟩ }

def topUp : Trade := ⟨"FOO", .yes, 9 / 10, 2 / 5, 1, 100, none⟩

def topUpFill : Arrival :=
  ⟨⟨none, "o1", "FOO", .yes, .buy, 1, some (.decimal (2 / 5)), none, true, some 1⟩, 0, 0, 0⟩

theorem topUpFill_pieces : OrderFills fortyCentsLeft "FOO" .yes (2 / 5) [topUpFill] :=
  ⟨⟨by decide +kernel, by decide +kernel, by decide +kernel, by decide +kernel, by decide +kernel⟩,
    by decide +kernel, by decide +kernel, by decide +kernel⟩

theorem caps_agree_iff_topUp :
    let cfg := fiveDollarCap
    let db := fortyCentsLeft
    let row := db.rowFor "FOO" .yes
    let left := cfg.risk.maxTotalExposureUsd -
      (currentTotalExposureDollars db + topUp.currentPrice * filled [topUpFill])
    let lift := roundingLift topUp.currentPrice row.avgPriceDollars.toDecimal row.count [1]
    0 ≤ left ∧ (row.count = 0 → lift = 0) ∧
      ∃ db' δs, bookFills cfg.fees.takerRate db [topUpFill] = .ok (db', δs) ∧
        (KeepsCap cfg db' ↔ lift ≤ left) :=
  caps_agree_iff
    (show (decisionFor fiveDollarCap fortyCentsLeft ⟨none⟩ .start ⟨0, 0⟩ topUp).allowed = true by
      decide +kernel)
    (by
      intro existing hfind hclosing
      have hsame : (fortyCentsLeft.positions.find topUp.marketTicker).all
          (fun p => p.side = topUp.side) = true := by decide +kernel
      rw [hfind] at hsame
      exact hclosing.2 (by simpa using hsame))
    (by decide +kernel) (by decide +kernel) topUpFill_pieces (by decide +kernel)

/-- One contract at 0.40 is let through for the last forty cents, and the average, rounded up
to 0.4001, takes the exposure over the cap. -/
theorem not_caps_agree :
    let cfg := fiveDollarCap
    let db := fortyCentsLeft
    let d := decisionFor cfg db ⟨none⟩ .start ⟨0, 0⟩ topUp
    d.allowed = true ∧ currentTotalExposureDollars db < cfg.risk.maxTotalExposureUsd ∧
      OrderFills db "FOO" .yes (2 / 5) [topUpFill] ∧ filled [topUpFill] = d.sizedContracts ∧
      ∃ db' δs, bookFills cfg.fees.takerRate db [topUpFill] = .ok (db', δs) ∧ ¬ KeepsCap cfg db' := by
  refine ⟨by decide +kernel, by decide +kernel, topUpFill_pieces, by decide +kernel, ?_⟩
  have hover : (bookFills fiveDollarCap.fees.takerRate fortyCentsLeft [topUpFill]).toOption.any
      (fun r => fiveDollarCap.risk.maxTotalExposureUsd < currentTotalExposureDollars r.1) = true := by
    decide +kernel
  cases hrun : bookFills fiveDollarCap.fees.takerRate fortyCentsLeft [topUpFill] with
  | error e =>
    rw [hrun] at hover
    cases hover
  | ok r =>
    rw [hrun] at hover
    refine ⟨r.1, r.2, rfl, fun hkeeps => ?_⟩
    exact absurd hkeeps.1 (not_le.mpr (of_decide_eq_true hover))

end KalshiAgent
