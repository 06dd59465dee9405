import KalshiAgent.Storage.Models
import KalshiAgent.Safety.Fees

/-! `apply_fill`: the fill of one trade booked into the Fill and Position tables. The position
arithmetic is split by action, and one inversion lemma says everything a call can do. -/

namespace KalshiAgent

/-- A fill as one call meets it, with the clock readings that stand in for a missing
`created_time`: in the duplicate lookup, in the stored row, in the ingestor's mark. -/
structure Arrival where
  fill : KalshiFill
  nowLookup : Time
  nowStored : Time
  nowSeen : Time
  deriving DecidableEq

inductive FillError
  -- ValueError: "fill missing price for side {fill.side}: {fill}"
  | missingPrice (side : Side) (fill : KalshiFill)
  -- decimal.InvalidOperation, from a text that is no decimal
  | invalidOperation
  -- decimal.DivisionByZero, when a top-up leaves no contracts
  | divisionByZero
  deriving DecidableEq

def fillPrice (fill : KalshiFill) : Except FillError ℚ :=
  match truthy (if fill.side = .yes then fill.yesPriceDollars else fill.noPriceDollars) with
  | none => .error (.missingPrice fill.side fill)
  | some raw =>
    match priceStrToDecimal raw with
    | none => .error .invalidOperation
    | some price => .ok price

structure FillIdentity where
  orderId : String
  ticker : Ticker
  createdAt : Time
  count : ℤ
  deriving DecidableEq

def Fill.identity (row : Fill) : FillIdentity :=
  ⟨row.kalshiOrderId, row.marketTicker, row.createdAt, row.count⟩

def KalshiFill.identityAt (fill : KalshiFill) (now : Time) : FillIdentity :=
  ⟨fill.orderId, fill.ticker, fill.createdTime.getD now, fill.count⟩

namespace Arrival

def lookupIdentity (a : Arrival) : FillIdentity := a.fill.identityAt a.nowLookup

def storedIdentity (a : Arrival) : FillIdentity := a.fill.identityAt a.nowStored

def row (a : Arrival) (price fee : ℚ) : Fill where
  createdAt := a.fill.createdTime.getD a.nowStored
  kalshiOrderId := a.fill.orderId
  marketTicker := a.fill.ticker
  side := a.fill.side
  count := a.fill.count
  priceDollars := priceDecimalToStr price
  feeDollars := priceDecimalToStr fee
  isTaker := a.fill.isTaker

@[simp] theorem row_identity (a : Arrival) (price fee : ℚ) :
    (a.row price fee).identity = a.storedIdentity := rfl

end Arrival

def Db.hasFill (db : Db) (i : FillIdentity) : Bool := db.fills.any (fun row => row.identity = i)

theorem Db.hasFill_iff {db : Db} {i : FillIdentity} :
    db.hasFill i = true ↔ ∃ row ∈ db.fills, row.identity = i := by
  simp [hasFill]

def newPosition (fill : KalshiFill) : Position where
  marketTicker := fill.ticker
  side := fill.side
  count := 0
  avgPriceDollars := .zero
  realizedPnlDollars := 0

namespace Position

/-- The `action == "buy"` branch: the moved position and what it realizes before fees. -/
def buy (pos : Position) (side : Side) (n : ℤ) (price : ℚ) : Except FillError (Position × ℚ) :=
  if pos.count = 0 then
    .ok ({ pos with side := side, count := n, avgPriceDollars := priceDecimalToStr price }, 0)
  else if pos.side = side then
    let oldTotal := pos.avgPriceDollars.toDecimal * pos.count
    let newTotal := oldTotal + price * n
    let newCount := pos.count + n
    if newCount = 0 then .error .divisionByZero
    else .ok ({ pos with
      avgPriceDollars := priceDecimalToStr (newTotal / newCount), count := newCount }, 0)
  else
    let pairCount := min pos.count n
    let closePnlPer := 1 - pos.avgPriceDollars.toDecimal - price
    let realized := closePnlPer * pairCount
    let left := pos.count - pairCount
    let remainder := n - pairCount
    if left = 0 then
      if 0 < remainder then
        .ok ({ pos with
          side := side, count := remainder, avgPriceDollars := priceDecimalToStr price }, realized)
      else .ok ({ pos with count := 0, avgPriceDollars := .zero }, realized)
    else .ok ({ pos with count := left }, realized)

/-- The other branch: contracts of the held side sold back. -/
def sell (pos : Position) (side : Side) (n : ℤ) (price : ℚ) : Position × ℚ :=
  if pos.side ≠ side ∨ pos.count = 0 then (pos, 0)  -- sell_without_position
  else
    let nClose := min pos.count n
    let left := pos.count - nClose
    ({ pos with count := left, avgPriceDollars := if left = 0 then .zero else pos.avgPriceDollars },
      (price - pos.avgPriceDollars.toDecimal) * nClose)

def trade (pos : Position) (fill : KalshiFill) (price : ℚ) : Except FillError (Position × ℚ) :=
  match fill.action with
  | .buy => pos.buy fill.side fill.count price
  | .sell => .ok (pos.sell fill.side fill.count price)

def accrue (pos : Position) (realized : ℚ) : Position :=
  { pos with realizedPnlDollars := pos.realizedPnlDollars + realized }

end Position

def Db.recordFill (db : Db) (row : Fill) (pos : Position) : Db :=
  { db with fills := db.fills ++ [row], positions := db.positions.put pos }

theorem Db.hasFill_recordFill (db : Db) (row : Fill) (pos : Position) (i : FillIdentity) :
    (db.recordFill row pos).hasFill i = true ↔ db.hasFill i = true ∨ row.identity = i := by
  rw [Db.hasFill_iff, Db.hasFill_iff, Db.recordFill]
  constructor
  · rintro ⟨r, hr, hi⟩
    rcases List.mem_append.mp hr with hr | hr
    · exact .inl ⟨r, hr, hi⟩
    · exact .inr (List.mem_singleton.mp hr ▸ hi)
  · rintro (⟨r, hr, hi⟩ | hi)
    · exact ⟨r, List.mem_append_left _ hr, hi⟩
    · exact ⟨row, List.mem_append_right _ (List.mem_singleton.mpr rfl), hi⟩

def Db.positionFor (db : Db) (fill : KalshiFill) : Position :=
  (db.positions.find fill.ticker).getD (newPosition fill)

def applyFill (takerRate : ℚ) (db : Db) (a : Arrival) : Except FillError (Db × ℚ) :=
  if db.hasFill a.lookupIdentity then .ok (db, 0)
  else
    match fillPrice a.fill with
    | .error e => .error e
    | .ok price =>
      let fee := totalFeeDollars a.fill.count price a.fill.isTaker takerRate
      match (db.positionFor a.fill).trade a.fill price with
      | .error e => .error e
      | .ok (moved, gross) =>
        let realized := gross - fee
        .ok (db.recordFill (a.row price fee) (moved.accrue realized), realized)

theorem applyFill_cases {rate : ℚ} {db db' : Db} {a : Arrival} {δ : ℚ}
    (h : applyFill rate db a = .ok (db', δ)) :
    (db.hasFill a.lookupIdentity = true ∧ db' = db ∧ δ = 0) ∨
      (db.hasFill a.lookupIdentity = false ∧ ∃ price moved gross,
        fillPrice a.fill = .ok price ∧
        (db.positionFor a.fill).trade a.fill price = .ok (moved, gross) ∧
        δ = gross - totalFeeDollars a.fill.count price a.fill.isTaker rate ∧
        db' = db.recordFill
          (a.row price (totalFeeDollars a.fill.count price a.fill.isTaker rate)) (moved.accrue δ)) := by
  unfold applyFill at h
  cases hdup : db.hasFill a.lookupIdentity with
  | true =>
    rw [hdup, if_pos rfl] at h
    cases h
    exact .inl ⟨rfl, rfl, rfl⟩
  | false =>
    rw [hdup, if_neg Bool.false_ne_true] at h
    refine .inr ⟨rfl, ?_⟩
    cases hprice : fillPrice a.fill with
    | error e => simp [hprice] at h
    | ok price =>
      cases htrade : (db.positionFor a.fill).trade a.fill price with
      | error e => simp [hprice, htrade] at h
      | ok mg =>
        obtain ⟨moved, gross⟩ := mg
        simp only [hprice, htrade, Except.ok.injEq, Prod.mk.injEq] at h
        obtain ⟨hdb, hδ⟩ := h
        exact ⟨price, moved, gross, rfl, htrade, hδ.symm, hδ ▸ hdb.symm⟩

/-- A fill that is not stored is booked as soon as its price can be read and its trade is defined. -/
theorem applyFill_of_new (rate : ℚ) {db : Db} {a : Arrival} {price gross : ℚ} {moved : Position}
    (hnew : db.hasFill a.lookupIdentity = false) (hprice : fillPrice a.fill = .ok price)
    (htrade : (db.positionFor a.fill).trade a.fill price = .ok (moved, gross)) :
    applyFill rate db a =
      .ok (db.recordFill (a.row price (totalFeeDollars a.fill.count price a.fill.isTaker rate))
          (moved.accrue (gross - totalFeeDollars a.fill.count price a.fill.isTaker rate)),
        gross - totalFeeDollars a.fill.count price a.fill.isTaker rate) := by
  simp [applyFill, hnew, hprice, htrade]

/-- The moves of a position, one for each branch of the bookkeeping. -/
inductive Moves (pos : Position) (fill : KalshiFill) (price : ℚ) : Position → ℚ → Prop
  | opens (haction : fill.action = .buy) (hflat : pos.count = 0) :
      Moves pos fill price { pos with
        side := fill.side, count := fill.count, avgPriceDollars := priceDecimalToStr price } 0
  | topsUp (haction : fill.action = .buy) (hheld : pos.count ≠ 0) (hside : pos.side = fill.side)
      (hsum : pos.count + fill.count ≠ 0) :
      Moves pos fill price { pos with
        avgPriceDollars := priceDecimalToStr
          ((pos.avgPriceDollars.toDecimal * pos.count + price * fill.count) /
            ((pos.count + fill.count : ℤ) : ℚ))
        count := pos.count + fill.count } 0
  | pairsSome (haction : fill.action = .buy) (hheld : pos.count ≠ 0) (hside : pos.side ≠ fill.side)
      (hless : fill.count < pos.count) :
      Moves pos fill price { pos with count := pos.count - fill.count }
        ((1 - pos.avgPriceDollars.toDecimal - price) * fill.count)
  | pairsAll (haction : fill.action = .buy) (hheld : pos.count ≠ 0) (hside : pos.side ≠ fill.side)
      (hall : fill.count = pos.count) :
      Moves pos fill price { pos with count := 0, avgPriceDollars := .zero }
        ((1 - pos.avgPriceDollars.toDecimal - price) * pos.count)
  | flips (haction : fill.action = .buy) (hheld : pos.count ≠ 0) (hside : pos.side ≠ fill.side)
      (hmore : pos.count < fill.count) :
      Moves pos fill price { pos with
        side := fill.side, count := fill.count - pos.count,
        avgPriceDollars := priceDecimalToStr price }
        ((1 - pos.avgPriceDollars.toDecimal - price) * pos.count)
  | sellsNone (haction : fill.action = .sell) (hnone : pos.side ≠ fill.side ∨ pos.count = 0) :
      Moves pos fill price pos 0
  | sellsSome (haction : fill.action = .sell) (hheld : pos.count ≠ 0) (hside : pos.side = fill.side)
      (hless : fill.count < pos.count) :
      Moves pos fill price { pos with count := pos.count - fill.count }
        ((price - pos.avgPriceDollars.toDecimal) * fill.count)
  | sellsAll (haction : fill.action = .sell) (hheld : pos.count ≠ 0) (hside : pos.side = fill.side)
      (hmore : pos.count ≤ fill.count) :
      Moves pos fill price { pos with count := 0, avgPriceDollars := .zero }
        ((price - pos.avgPriceDollars.toDecimal) * pos.count)

theorem rounded_mean_between {avg price c n : ℚ} (havg : FourPlaces avg) (hprice : FourPlaces price)
    (hc : 0 < c) (hn : 0 < n) :
    min avg price ≤ (priceDecimalToStr ((avg * c + price * n) / (c + n))).toDecimal ∧
      (priceDecimalToStr ((avg * c + price * n) / (c + n))).toDecimal ≤ max avg price := by
  have hsum : 0 < c + n := add_pos hc hn
  have hfour : ∀ q, q = avg ∨ q = price → FourPlaces q := by
    rintro q (rfl | rfl) <;> assumption
  constructor
  · apply le_priceDecimalToStr (hfour _ (min_choice avg price))
    rw [le_div_iff₀ hsum]
    nlinarith [min_le_left avg price, min_le_right avg price]
  · apply priceDecimalToStr_le (hfour _ (max_choice avg price))
    rw [div_le_iff₀ hsum]
    nlinarith [le_max_left avg price, le_max_right avg price]

section Trade
variable {pos moved : Position} {fill : KalshiFill} {price gross : ℚ}

theorem buy_moves (haction : fill.action = .buy)
    (h : pos.buy fill.side fill.count price = .ok (moved, gross)) :
    Moves pos fill price moved gross := by
  unfold Position.buy at h
  by_cases hflat : pos.count = 0
  · rw [if_pos hflat] at h
    cases h
    exact .opens haction hflat
  rw [if_neg hflat] at h
  by_cases hside : pos.side = fill.side
  · rw [if_pos hside] at h
    dsimp only at h
    split_ifs at h with hsum
    cases h
    exact .topsUp haction hflat hside hsum
  rw [if_neg hside] at h
  dsimp only at h
  rcases lt_trichotomy fill.count pos.count with hlt | heq | hgt
  · rw [min_eq_right hlt.le, if_neg (by omega)] at h
    cases h
    exact .pairsSome haction hflat hside hlt
  · rw [min_eq_left heq.ge, if_pos (by omega), if_neg (by omega)] at h
    cases h
    exact .pairsAll haction hflat hside heq
  · rw [min_eq_left hgt.le, if_pos (by omega), if_pos (by omega)] at h
    cases h
    exact .flips haction hflat hside hgt

theorem sell_moves (haction : fill.action = .sell)
    (h : pos.sell fill.side fill.count price = (moved, gross)) :
    Moves pos fill price moved gross := by
  unfold Position.sell at h
  by_cases hnone : pos.side ≠ fill.side ∨ pos.count = 0
  · rw [if_pos hnone] at h
    cases h
    exact .sellsNone haction hnone
  rw [if_neg hnone] at h
  obtain ⟨hside, hheld⟩ := not_or.mp hnone
  rw [not_not] at hside
  dsimp only at h
  rcases lt_or_ge fill.count pos.count with hlt | hge
  · rw [min_eq_right hlt.le, if_neg (by omega)] at h
    cases h
    exact .sellsSome haction hheld hside hlt
  · rw [min_eq_left hge, sub_self, if_pos rfl] at h
    cases h
    exact .sellsAll haction hheld hside hge

theorem trade_moves (h : pos.trade fill price = .ok (moved, gross)) :
    Moves pos fill price moved gross := by
  unfold Position.trade at h
  cases haction : fill.action with
  | buy =>
    rw [haction] at h
    exact buy_moves haction h
  | sell =>
    rw [haction] at h
    exact sell_moves haction (Except.ok.inj h)

theorem Moves.marketTicker (h : Moves pos fill price moved gross) :
    moved.marketTicker = pos.marketTicker := by
  cases h <;> rfl

theorem Moves.realizedPnlDollars (h : Moves pos fill price moved gross) :
    moved.realizedPnlDollars = pos.realizedPnlDollars := by
  cases h <;> rfl

theorem Moves.count_nonneg (h : Moves pos fill price moved gross) (hpos : 0 ≤ pos.count)
    (hn : 0 ≤ fill.count) : 0 ≤ moved.count := by
  cases h <;> first | exact hpos | (dsimp only; omega)

theorem trade_defined (hpos : 0 ≤ pos.count) (hn : 1 ≤ fill.count) (price : ℚ) :
    ∃ moved gross, pos.trade fill price = .ok (moved, gross) := by
  unfold Position.trade
  cases fill.action with
  | sell => exact ⟨_, _, rfl⟩
  | buy =>
    simp only [Position.buy]
    split_ifs <;> first | exact ⟨_, _, rfl⟩ | omega

end Trade

@[simp] theorem positionFor_marketTicker (db : Db) (fill : KalshiFill) :
    (db.positionFor fill).marketTicker = fill.ticker := by
  unfold Db.positionFor
  cases h : db.positions.find fill.ticker with
  | none => rfl
  | some pos => exact KeyedTable.find_key h

theorem trade_marketTicker {db : Db} {fill : KalshiFill} {price gross : ℚ} {moved : Position}
    (h : (db.positionFor fill).trade fill price = .ok (moved, gross)) :
    moved.marketTicker = fill.ticker :=
  (trade_moves h).marketTicker.trans (positionFor_marketTicker db fill)

/-- Of the tables the call reads whether the fill is stored and what position it meets. -/
theorem applyFill_alike {rate δ : ℚ} {db₁ db₂ db₁' : Db} {a : Arrival}
    (hhas : db₁.hasFill a.lookupIdentity = db₂.hasFill a.lookupIdentity)
    (hpos : db₁.positionFor a.fill = db₂.positionFor a.fill)
    (h : applyFill rate db₁ a = .ok (db₁', δ)) :
    ∃ db₂', applyFill rate db₂ a = .ok (db₂', δ) ∧
      (db₁' = db₁ ∧ db₂' = db₂ ∨
        ∃ row pos, row.marketTicker = a.fill.ticker ∧ pos.marketTicker = a.fill.ticker ∧
          db₁' = db₁.recordFill row pos ∧ db₂' = db₂.recordFill row pos) := by
  rcases applyFill_cases h with ⟨hdup, rfl, rfl⟩ |
    ⟨hnew, price, moved, gross, hprice, htrade, rfl, rfl⟩
  · have hskip : applyFill rate db₂ a = .ok (db₂, 0) := by rw [applyFill, ← hhas, if_pos hdup]
    exact ⟨db₂, hskip, .inl ⟨rfl, rfl⟩⟩
  · have hticker : moved.marketTicker = a.fill.ticker := trade_marketTicker htrade
    have hbooks := applyFill_of_new rate (hhas ▸ hnew) hprice (hpos ▸ htrade)
    exact ⟨_, hbooks, .inr ⟨a.row price _, moved.accrue _, rfl, hticker, rfl, rfl⟩⟩

theorem positionFor_count_nonneg {db : Db} (h : ∀ p ∈ db.positions.rows, 0 ≤ p.count)
    (fill : KalshiFill) : 0 ≤ (db.positionFor fill).count := by
  unfold Db.positionFor
  cases hfind : db.positions.find fill.ticker with
  | none => exact le_rfl
  | some pos => exact h pos (KeyedTable.mem_of_find hfind)

theorem applyFill_count_nonneg {rate δ : ℚ} {db db' : Db} {a : Arrival}
    (hdb : ∀ p ∈ db.positions.rows, 0 ≤ p.count) (hn : 0 ≤ a.fill.count)
    (h : applyFill rate db a = .ok (db', δ)) : ∀ p ∈ db'.positions.rows, 0 ≤ p.count := by
  rcases applyFill_cases h with ⟨_, rfl, _⟩ | ⟨_, price, moved, gross, _, htrade, _, rfl⟩
  · exact hdb
  · intro p hp
    rcases KeyedTable.mem_put.mp hp with rfl | ⟨hold, _⟩
    · exact (trade_moves htrade).count_nonneg (positionFor_count_nonneg hdb a.fill) hn
    · exact hdb p hold

end KalshiAgent
