import KalshiAgent.Positions.History

/-! Accounting conservation. A ledger kept beside the fills records the pairs closed, the
sale proceeds, the cost of buys and the fees. The realized PnL of the row plus what the open
contracts cost is the cash the ledger accounts for, up to the rounding of averages in top-ups. -/

namespace KalshiAgent

structure Ledger where
  net : ℤ
  pairs : ℤ
  proceeds : ℚ
  cost : ℚ
  fees : ℚ
  -- the count held right after each top-up of the held side
  topUps : List ℤ
  deriving DecidableEq

namespace Ledger

def empty : Ledger := ⟨0, 0, 0, 0, 0, []⟩

def record (rate : ℚ) (l : Ledger) (fill : KalshiFill) : Ledger :=
  let held := fill.side.sign * l.net
  let fees := l.fees + totalFeeDollars fill.count fill.price fill.isTaker rate
  match fill.action with
  | .buy => { l with
      net := signedTrade l.net fill
      pairs := l.pairs + min (max (-held) 0) fill.count
      cost := l.cost + fill.price * fill.count
      fees := fees
      topUps := if 0 < held then l.topUps ++ [held + fill.count] else l.topUps }
  | .sell => { l with
      net := signedTrade l.net fill
      proceeds := l.proceeds + fill.price * fill.count
      fees := fees }

def Covers (l : Ledger) (fill : KalshiFill) : Prop :=
  fill.action = .sell → fill.count ≤ fill.side.sign * l.net

instance (l : Ledger) (fill : KalshiFill) : Decidable (l.Covers fill) :=
  inferInstanceAs (Decidable (_ → _))

/-- Cash in and out of the ledger, with open contracts at their average price. -/
def balance (l : Ledger) (exposure : ℚ) : ℚ :=
  l.pairs + l.proceeds - l.cost - l.fees + exposure

def roundingBound (l : Ledger) : ℚ := 1 / 20000 * (l.topUps.sum : ℤ)

section Record
variable (rate : ℚ) (l : Ledger) {fill : KalshiFill}

theorem record_sell (h : fill.action = .sell) :
    (l.record rate fill).pairs = l.pairs ∧
      (l.record rate fill).proceeds = l.proceeds + fill.price * fill.count ∧
      (l.record rate fill).cost = l.cost ∧ (l.record rate fill).topUps = l.topUps := by
  simp [record, h]

theorem record_fees : (l.record rate fill).fees =
    l.fees + totalFeeDollars fill.count fill.price fill.isTaker rate := by
  unfold record
  cases fill.action <;> rfl

theorem record_net : (l.record rate fill).net = signedTrade l.net fill := by
  unfold record
  cases fill.action <;> rfl

theorem record_buy_cost (h : fill.action = .buy) :
    (l.record rate fill).proceeds = l.proceeds ∧
      (l.record rate fill).cost = l.cost + fill.price * fill.count := by
  simp [record, h]

theorem record_topUp (h : fill.action = .buy) (hheld : 0 < fill.side.sign * l.net)
    (hn : 1 ≤ fill.count) :
    (l.record rate fill).pairs = l.pairs ∧
      (l.record rate fill).topUps = l.topUps ++ [fill.side.sign * l.net + fill.count] := by
  have hzero : min (max (-(fill.side.sign * l.net)) 0) fill.count = 0 := by omega
  simp only [record, h, hzero, if_pos hheld, add_zero, and_self]

theorem record_pairs (h : fill.action = .buy) (hheld : fill.side.sign * l.net ≤ 0) :
    (l.record rate fill).pairs = l.pairs + min (-(fill.side.sign * l.net)) fill.count ∧
      (l.record rate fill).topUps = l.topUps := by
  have hmax : max (-(fill.side.sign * l.net)) 0 = -(fill.side.sign * l.net) := by omega
  simp only [record, h, hmax, if_neg (not_lt.mpr hheld), and_self]

theorem record_roundingBound (h : fill.action = .buy) (hheld : fill.side.sign * l.net ≤ 0) :
    (l.record rate fill).roundingBound = l.roundingBound := by
  rw [roundingBound, (record_pairs rate l h hheld).2, roundingBound]

end Record

end Ledger

structure Accounted (pos : Position) (l : Ledger) : Prop where
  net : pos.signed = l.net
  count_nonneg : 0 ≤ pos.count
  balanced : |pos.realizedPnlDollars - l.balance pos.exposure| ≤ l.roundingBound

theorem abs_sub_roundedMean_mul_le (total : ℚ) {count : ℚ} (hcount : 0 < count) :
    |total - (priceDecimalToStr (total / count)).toDecimal * count| ≤ 1 / 20000 * count := by
  have hround := abs_priceDecimalToStr_sub_le (total / count)
  have hmean : total / count * count = total := div_mul_cancel₀ total hcount.ne'
  calc |total - (priceDecimalToStr (total / count)).toDecimal * count|
      = |total / count * count - (priceDecimalToStr (total / count)).toDecimal * count| := by
        rw [hmean]
    _ = |(priceDecimalToStr (total / count)).toDecimal - total / count| * count := by
        rw [← sub_mul, abs_mul, abs_of_pos hcount, abs_sub_comm]
    _ ≤ 1 / 20000 * count := mul_le_mul_of_nonneg_right hround hcount.le

section Step
variable (rate : ℚ) {pos moved : Position} {l : Ledger} {fill : KalshiFill} {gross : ℚ}

theorem record_against (hnet : pos.signed = l.net) (hpos : 0 ≤ pos.count)
    (hbuy : fill.action = .buy) (hside : pos.side ≠ fill.side) :
    (l.record rate fill).roundingBound = l.roundingBound ∧
      (l.record rate fill).pairs = l.pairs + min pos.count fill.count := by
  have hheld : fill.side.sign * l.net = -pos.count := by rw [← hnet, sign_mul_signed_of_ne hside]
  have hle : fill.side.sign * l.net ≤ 0 := by omega
  have hpairs := (Ledger.record_pairs rate l hbuy hle).1
  rw [hheld, neg_neg] at hpairs
  exact ⟨Ledger.record_roundingBound rate l hbuy hle, hpairs⟩

/-- How far a move of the books takes the realized PnL from the ledger's balance. -/
theorem balance_step (h : Moves pos fill fill.price moved gross) (hnet : pos.signed = l.net)
    (hpos : 0 ≤ pos.count) (hn : 1 ≤ fill.count) (htick : OnTick fill.price) (hcover : l.Covers fill) :
    ∃ ε : ℚ, |ε| ≤ (l.record rate fill).roundingBound - l.roundingBound ∧
      (moved.accrue
          (gross - totalFeeDollars fill.count fill.price fill.isTaker rate)).realizedPnlDollars -
          (l.record rate fill).balance moved.exposure =
        pos.realizedPnlDollars - l.balance pos.exposure + ε := by
  have hexact : (priceDecimalToStr fill.price).toDecimal = fill.price :=
    toDecimal_priceDecimalToStr htick.2.2
  cases h with
  | opens haction hflat =>
    have hheld : fill.side.sign * l.net = 0 := by
      rw [← hnet, signed_eq_zero_iff.mpr hflat, mul_zero]
    refine ⟨0, by simp [Ledger.record_roundingBound rate l haction hheld.le], ?_⟩
    have hcost := Ledger.record_buy_cost rate l haction
    have hpairs := (Ledger.record_pairs rate l haction hheld.le).1
    rw [hheld, neg_zero, min_eq_left (by omega), add_zero] at hpairs
    simp only [Ledger.balance, Position.accrue, Position.exposure, hexact, hcost, hpairs,
      Ledger.record_fees, hflat]
    push_cast
    ring
  | topsUp haction hheld hside hsum =>
    have hpos' : 0 < pos.count := by omega
    have hheld' : fill.side.sign * l.net = pos.count := by rw [← hnet, sign_mul_signed_of_eq hside]
    have hcost := Ledger.record_buy_cost rate l haction
    obtain ⟨hpairs, htop⟩ :=
      Ledger.record_topUp rate l haction (hheld' ▸ hpos') hn
    have hcount : (0 : ℚ) < ((pos.count + fill.count : ℤ) : ℚ) := by
      exact_mod_cast (by omega : (0 : ℤ) < pos.count + fill.count)
    -- the only inexact move: the mean is rounded, and the error counts once per contract
    have hgap := abs_sub_roundedMean_mul_le
      (pos.avgPriceDollars.toDecimal * pos.count + fill.price * fill.count) hcount
    refine ⟨_, hgap.trans_eq ?_, ?_⟩
    · rw [Ledger.roundingBound, Ledger.roundingBound, htop, hheld', List.sum_append,
        List.sum_singleton]
      push_cast
      ring
    · simp only [Ledger.balance, Position.accrue, Position.exposure, hcost, hpairs,
        Ledger.record_fees]
      ring
  | pairsSome haction hheld hside hless =>
    obtain ⟨hbound, hpairs⟩ := record_against rate hnet hpos haction hside
    refine ⟨0, by simp [hbound], ?_⟩
    have hcost := Ledger.record_buy_cost rate l haction
    rw [min_eq_right hless.le] at hpairs
    simp only [Ledger.balance, Position.accrue, Position.exposure, hcost, hpairs, Ledger.record_fees]
    push_cast
    ring
  | pairsAll haction hheld hside hall =>
    obtain ⟨hbound, hpairs⟩ := record_against rate hnet hpos haction hside
    refine ⟨0, by simp [hbound], ?_⟩
    have hcost := Ledger.record_buy_cost rate l haction
    rw [min_eq_left hall.ge] at hpairs
    simp only [Ledger.balance, Position.accrue, Position.exposure, hcost, hpairs, Ledger.record_fees,
      hall, Dollars4.toDecimal_zero]
    push_cast
    ring
  | flips haction hheld hside hmore =>
    obtain ⟨hbound, hpairs⟩ := record_against rate hnet hpos haction hside
    refine ⟨0, by simp [hbound], ?_⟩
    have hcost := Ledger.record_buy_cost rate l haction
    rw [min_eq_left hmore.le] at hpairs
    simp only [Ledger.balance, Position.accrue, Position.exposure, hexact, hcost, hpairs,
      Ledger.record_fees]
    push_cast
    ring
  | sellsNone haction hnone =>
    exfalso
    have hcov := hcover haction
    rcases hnone with hside | hflat
    · rw [← hnet, sign_mul_signed_of_ne hside] at hcov
      omega
    · rw [← hnet, signed_eq_zero_iff.mpr hflat, mul_zero] at hcov
      omega
  | sellsSome haction hheld hside hless =>
    obtain ⟨hpairs, hproceeds, hcost, htop⟩ := Ledger.record_sell rate l haction
    refine ⟨0, by simp [Ledger.roundingBound, htop], ?_⟩
    simp only [Ledger.balance, Position.accrue, Position.exposure, hpairs, hproceeds, hcost,
      Ledger.record_fees]
    push_cast
    ring
  | sellsAll haction hheld hside hmore =>
    have hcov := hcover haction
    rw [← hnet, sign_mul_signed_of_eq hside] at hcov
    have hall : fill.count = pos.count := le_antisymm hcov hmore
    obtain ⟨hpairs, hproceeds, hcost, htop⟩ := Ledger.record_sell rate l haction
    refine ⟨0, by simp [Ledger.roundingBound, htop], ?_⟩
    simp only [Ledger.balance, Position.accrue, Position.exposure, hpairs, hproceeds, hcost,
      Ledger.record_fees, hall, Dollars4.toDecimal_zero]
    push_cast
    ring

theorem Accounted.step (hacc : Accounted pos l) (h : Moves pos fill fill.price moved gross)
    (hn : 1 ≤ fill.count) (htick : OnTick fill.price) (hcover : l.Covers fill) :
    Accounted (moved.accrue (gross - totalFeeDollars fill.count fill.price fill.isTaker rate))
      (l.record rate fill) where
  net := by
    rw [Ledger.record_net, ← hacc.net]
    exact h.signed hacc.count_nonneg
  count_nonneg := h.count_nonneg hacc.count_nonneg (by omega)
  balanced := by
    obtain ⟨ε, hε, hgap⟩ := balance_step rate h hacc.net hacc.count_nonneg hn htick hcover
    calc _ = |pos.realizedPnlDollars - l.balance pos.exposure + ε| := congrArg abs hgap
      _ ≤ |pos.realizedPnlDollars - l.balance pos.exposure| + |ε| := abs_add_le _ _
      _ ≤ (l.record rate fill).roundingBound := by linarith [hacc.balanced]

end Step

/-- Accounting conservation over a history of any length from an absent position. -/
theorem realizedPnl_conserved (rate : ℚ) (db : Db) (t : Ticker) (ds : List Arrival)
    (habsent : db.positions.find t = none) (hh : History db t ds)
    (hcover : Admits (Ledger.record rate) Ledger.Covers .empty ds) :
    ∃ db', applyFills rate db ds = .ok db' ∧
      let pos := db'.rowFor t .yes
      let l := ghost (Ledger.record rate) .empty ds
      |pos.realizedPnlDollars - (l.pairs + l.proceeds - l.cost - l.fees +
          pos.avgPriceDollars.toDecimal * pos.count)| ≤ 0.00005 * (l.topUps.sum : ℤ) ∧
        (l.topUps = [] → pos.realizedPnlDollars = l.pairs + l.proceeds - l.cost - l.fees +
          pos.avgPriceDollars.toDecimal * pos.count) := by
  have hstart : ∀ side, Accounted (db.rowFor t side) .empty := by
    intro side
    rw [Db.rowFor, habsent]
    exact ⟨by simp [Position.signed, Ledger.empty], le_rfl,
      by simp [Ledger.balance, Ledger.empty, Ledger.roundingBound, Position.exposure]⟩
  obtain ⟨db', hrun, hend⟩ := applyFills_rule rate
    (fun _ _ h => h.count_nonneg)
    (fun _ _ _ _ _ hacc hcov hn htick hmoves => hacc.step rate hmoves hn htick hcov) hh hcover hstart
  refine ⟨db', hrun, ?_⟩
  have hbal := (hend .yes).balanced
  unfold Ledger.balance Ledger.roundingBound Position.exposure at hbal
  constructor
  · norm_num at hbal ⊢
    exact hbal
  · intro hnone
    rw [hnone, List.sum_nil, Int.cast_zero, mul_zero, abs_nonpos_iff, sub_eq_zero] at hbal
    exact hbal

def flipHistory : List Arrival :=
  [(.yes, 10, 1 / 2, 1), (.yes, 5, 6001 / 10000, 2), (.no, 20, 9 / 20, 3)].map
    fun (side, count, price, time) =>
      ⟨⟨none, "o1", "FOO", side, .buy, count, some (.decimal price), some (.decimal price), true,
        some time⟩, 0, 0, 0⟩

theorem realizedPnl_conserved_flip :
    ∃ db', applyFills (7 / 100) .empty flipHistory = .ok db' ∧
      let pos := db'.rowFor "FOO" .yes
      let l := ghost (Ledger.record (7 / 100)) .empty flipHistory
      |pos.realizedPnlDollars - (l.pairs + l.proceeds - l.cost - l.fees +
          pos.avgPriceDollars.toDecimal * pos.count)| ≤ 0.00005 * (l.topUps.sum : ℤ) ∧
        (l.topUps = [] → pos.realizedPnlDollars = l.pairs + l.proceeds - l.cost - l.fees +
          pos.avgPriceDollars.toDecimal * pos.count) :=
  realizedPnl_conserved (7 / 100) .empty "FOO" flipHistory rfl
    ⟨by decide +kernel, by decide +kernel, by decide +kernel, by decide +kernel, by decide +kernel⟩
    ⟨nofun, nofun, nofun, trivial⟩

end KalshiAgent
