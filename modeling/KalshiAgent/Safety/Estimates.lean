import KalshiAgent.Positions.OrderFills
import KalshiAgent.Safety.Sizing

/-! The estimates of an allowed decision against what its fills are booked at. The fee estimate
is exact for every order, the edge estimate for one that closes. -/

namespace KalshiAgent

abbrev decisionFor (cfg : Config) (db : Db) (kill : KillSwitch) (st : RiskState) (clock : Clock)
    (trade : Trade) : RiskDecision := (checkTrade cfg db kill st clock trade).2

theorem edgeDecision_fees {cfg : Config} {trade : Trade} {contracts : ℤ}
    (h : (edgeDecision cfg trade contracts).allowed = true) :
    (edgeDecision cfg trade contracts).expectedFeesDollars =
      totalFeeDollars contracts trade.currentPrice cfg.fees.assumeTaker cfg.fees.takerRate := by
  unfold edgeDecision at h ⊢
  dsimp only at h ⊢
  split_ifs at h ⊢ <;> first | rfl | exact absurd h Bool.false_ne_true

theorem sizeTrade_fees {cfg : Config} {db : Db} {trade : Trade}
    (h : (sizeTrade cfg db trade).allowed = true) :
    (sizeTrade cfg db trade).expectedFeesDollars =
      totalFeeDollars (sizeTrade cfg db trade).sizedContracts trade.currentPrice
        cfg.fees.assumeTaker cfg.fees.takerRate := by
  have hopening : ∀ d, d = openingDecision cfg db trade → d.allowed = true →
      d.expectedFeesDollars = totalFeeDollars d.sizedContracts trade.currentPrice
        cfg.fees.assumeTaker cfg.fees.takerRate := by
    rintro d rfl hallowed
    obtain ⟨_, heq⟩ := openingDecision_sizes hallowed
    rw [heq] at hallowed ⊢
    rw [edgeDecision_fees hallowed, edgeDecision_allowed hallowed]
  unfold sizeTrade at h ⊢
  cases hfind : db.positions.find trade.marketTicker with
  | none =>
    simp only [hfind] at h
    exact hopening _ rfl h
  | some existing =>
    simp only [hfind] at h ⊢
    split_ifs at h ⊢ with hclosing
    · rfl
    · exact hopening _ rfl h

theorem sizeTrade_closing (cfg : Config) {db : Db} {trade : Trade} {existing : Position}
    (hfind : db.positions.find trade.marketTicker = some existing) (hheld : 0 < existing.count)
    (hside : existing.side ≠ trade.side) :
    sizeTrade cfg db trade = closingDecision cfg trade existing := by
  unfold sizeTrade
  simp only [hfind]
  exact if_pos ⟨hheld, hside⟩

structure FilledBy (cfg : Config) (db : Db) (trade : Trade) (n : ℤ) (ds : List Arrival) : Prop where
  pieces : OrderFills db trade.marketTicker trade.side trade.currentPrice ds
  sameClass : ∀ a ∈ ds, a.fill.isTaker = cfg.fees.assumeTaker
  total : filled ds = n

/-- Booking the fills of an allowed order, in any pieces and any order, comes to its estimates. -/
theorem estimates_booked {cfg : Config} {db : Db} {kill : KillSwitch} {st : RiskState} {clock : Clock}
    {trade : Trade} {ds : List Arrival}
    (hallowed : (decisionFor cfg db kill st clock trade).allowed = true)
    (hds : FilledBy cfg db trade (decisionFor cfg db kill st clock trade).sizedContracts ds) :
    (0 ≤ db.held trade.marketTicker → ∃ r, bookFills cfg.fees.takerRate db ds = .ok r) ∧
      (∀ db' δs, bookFills cfg.fees.takerRate db ds = .ok (db', δs) →
        ∃ rows, db'.fills = db.fills ++ rows ∧
          rows.map Fill.identity = ds.map Arrival.storedIdentity ∧
          (rows.map (fun row => row.feeDollars.toDecimal)).sum =
            (decisionFor cfg db kill st clock trade).expectedFeesDollars) ∧
      (∀ existing, db.positions.find trade.marketTicker = some existing → 0 < existing.count →
        existing.side ≠ trade.side →
        ∃ db' δs pos, bookFills cfg.fees.takerRate db ds = .ok (db', δs) ∧
          db'.positions.find trade.marketTicker = some pos ∧
          δs.sum = (decisionFor cfg db kill st clock trade).expectedEdgeDollars ∧
          pos.side = existing.side ∧
          pos.count = existing.count - (decisionFor cfg db kill st clock trade).sizedContracts) := by
  obtain ⟨_, _, _, _, hsize⟩ := checkTrade_allowed hallowed
  unfold decisionFor at hallowed hds ⊢
  rw [hsize] at hallowed hds ⊢
  refine ⟨?_, ?_, ?_⟩
  · intro hheld
    apply bookFills_returns _ hds.pieces
    intro side
    unfold Db.held at hheld
    unfold Db.rowFor
    cases hfind : db.positions.find trade.marketTicker with
    | none => exact le_rfl
    | some pos => simpa [hfind] using hheld
  · intro db' δs hrun
    rw [sizeTrade_fees hallowed, ← hds.total]
    exact bookFills_fees hds.pieces hds.sameClass hrun
  · intro existing hfind hheld hside
    have hclosing := sizeTrade_closing cfg hfind hheld hside
    have htotal := hds.total
    rw [hclosing] at htotal ⊢
    have hle : filled ds ≤ existing.count := htotal.trans_le (min_le_left _ _)
    obtain ⟨db', δs, pos, hrun, hpos, hsum, hkept, hcount⟩ :=
      bookFills_closes cfg.fees.takerRate hds.pieces hds.sameClass hfind hside hle
    refine ⟨db', δs, pos, hrun, hpos, ?_, hkept, ?_⟩
    · rw [hsum, htotal]
      rfl
    · rw [hcount, htotal]

def holdsTenYes : Db :=
  { Db.empty with positions := KeyedTable.empty.put ⟨"FOO", .yes, 10, ⟨4000⟩, 0⟩ }

def twoPieces : List Arrival :=
  [(4, 1), (6, 2)].map fun (count, time) =>
    ⟨⟨none, "o1", "FOO", .no, .buy, count, none, some (.decimal (11 / 20)), true, some time⟩, 0, 0, 0⟩

theorem estimates_booked_twoPieces :
    let cfg := Config.example (.fixed 0)
    let trade : Trade := ⟨"FOO", .no, 1 / 5, 11 / 20, 1 / 2, 100, none⟩
    let d := decisionFor cfg holdsTenYes ⟨none⟩ .start ⟨0, 0⟩ trade
    d.allowed = true ∧ FilledBy cfg holdsTenYes trade d.sizedContracts twoPieces ∧
      (0 ≤ holdsTenYes.held "FOO" →
        ∃ r, bookFills cfg.fees.takerRate holdsTenYes twoPieces = .ok r) ∧
      (∀ db' δs, bookFills cfg.fees.takerRate holdsTenYes twoPieces = .ok (db', δs) →
        ∃ rows, db'.fills = holdsTenYes.fills ++ rows ∧
          rows.map Fill.identity = twoPieces.map Arrival.storedIdentity ∧
          (rows.map (fun row => row.feeDollars.toDecimal)).sum = d.expectedFeesDollars) ∧
      (∀ existing, holdsTenYes.positions.find "FOO" = some existing → 0 < existing.count →
        existing.side ≠ .no →
        ∃ db' δs pos, bookFills cfg.fees.takerRate holdsTenYes twoPieces = .ok (db', δs) ∧
          db'.positions.find "FOO" = some pos ∧ δs.sum = d.expectedEdgeDollars ∧
          pos.side = existing.side ∧ pos.count = existing.count - d.sizedContracts) := by
  intro cfg trade d
  have hallowed : d.allowed = true := by decide +kernel
  have hds : FilledBy cfg holdsTenYes trade d.sizedContracts twoPieces :=
    ⟨⟨⟨by decide +kernel, by decide +kernel, by decide +kernel, by decide +kernel, by decide +kernel⟩,
      by decide +kernel, by decide +kernel, by decide +kernel⟩, by decide +kernel, by decide +kernel⟩
  exact ⟨hallowed, hds, estimates_booked hallowed hds⟩

end KalshiAgent
