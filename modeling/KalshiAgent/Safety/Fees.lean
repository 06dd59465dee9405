import KalshiAgent.Kalshi.Types

/-! The fee formulas, in exact arithmetic. The taker fee of one contract is rounded up to a
whole cent and the maker fee is a quarter of it, so every total fee is a four-place decimal. -/

namespace KalshiAgent

def takerFeePerContractDollars (price rate : ℚ) : ℚ :=
  let rawCents := rate * price * (1 - price) * 100
  (⌈rawCents⌉ : ℚ) / 100

def makerFeePerContractDollars (price rate : ℚ) : ℚ := takerFeePerContractDollars price rate * (1 / 4)

def totalFeeDollars (contracts : ℤ) (price : ℚ) (isTaker : Bool) (rate : ℚ) : ℚ :=
  (if isTaker then takerFeePerContractDollars price rate else makerFeePerContractDollars price rate) *
    contracts

def edgeAfterFeesDollars (contracts : ℤ) (modelProbability price : ℚ) (side : Side)
    (isTaker : Bool) (rate : ℚ) : ℚ :=
  let p := if side = .yes then modelProbability else 1 - modelProbability
  let expectedPerContract := p * (1 - price) - (1 - p) * price
  expectedPerContract * contracts - totalFeeDollars contracts price isTaker rate

theorem fourPlaces_totalFeeDollars (contracts : ℤ) (price : ℚ) (isTaker : Bool) (rate : ℚ) :
    FourPlaces (totalFeeDollars contracts price isTaker rate) := by
  unfold totalFeeDollars makerFeePerContractDollars takerFeePerContractDollars
  cases isTaker
  · refine ⟨25 * ⌈rate * price * (1 - price) * 100⌉ * contracts, ?_⟩
    simp only [Bool.false_eq_true, if_false]
    push_cast
    ring
  · refine ⟨100 * ⌈rate * price * (1 - price) * 100⌉ * contracts, ?_⟩
    simp only [if_true]
    push_cast
    ring

end KalshiAgent
