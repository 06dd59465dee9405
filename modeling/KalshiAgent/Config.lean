import KalshiAgent.Kalshi.Types
import Mathlib.Data.Int.ConditionallyCompleteOrder

/-! The configuration, as far as the modelled code reads it. A float setting is the rational
number it stands for. -/

namespace KalshiAgent

def timedeltaDays (n : ℤ) : ℤ := n * 86400000000

/-- The display time zone: the local date of an instant and the instant a local date begins. -/
structure Tz where
  localDay : Time → ℤ
  midnight : ℤ → Time
  localDay_mono : Monotone localDay
  midnight_le : ∀ t, midnight (localDay t) ≤ t
  localDay_midnight : ∀ t, localDay (midnight (localDay t)) = localDay t

def Tz.fixed (offset : ℤ) : Tz where
  localDay t := (t + offset) / 86400000000
  midnight d := d * 86400000000 - offset
  localDay_mono _ _ h := Int.ediv_le_ediv (by decide) (Int.add_le_add_right h offset)
  midnight_le _ := sub_le_iff_le_add.mpr (Int.ediv_mul_le _ (by decide))
  localDay_midnight t := by
    rw [sub_add_cancel, Int.mul_ediv_cancel _ (by decide)]

structure RiskConfig where
  maxPositionPerMarketUsd : ℚ
  maxTotalExposureUsd : ℚ
  maxDailyLossUsd : ℚ
  perOrderMaxContracts : ℤ
  maxOrdersPerMinute : ℤ
  minEdgeAfterFeesBps : ℤ
  kellyFraction : ℚ
  maxKellySizePctBankroll : ℚ
  errorSpikeThreshold : ℤ
  errorSpikeWindowSeconds : ℤ
  -- the field validator `_fraction`
  kellyFraction_mem : 0 < kellyFraction ∧ kellyFraction ≤ 1
  maxKellySize_mem : 0 < maxKellySizePctBankroll ∧ maxKellySizePctBankroll ≤ 1

structure FeesConfig where
  takerRate : ℚ
  assumeTaker : Bool

structure MarketsConfig where
  whitelistCategories : List String
  whitelistTickers : List Ticker

structure Config where
  risk : RiskConfig
  fees : FeesConfig
  markets : MarketsConfig
  displayTimezone : Tz

def Config.example (tz : Tz) : Config where
  risk := {
    maxPositionPerMarketUsd := 25
    maxTotalExposureUsd := 200
    maxDailyLossUsd := 50
    perOrderMaxContracts := 50
    maxOrdersPerMinute := 10
    minEdgeAfterFeesBps := 200
    kellyFraction := 1 / 4
    maxKellySizePctBankroll := 1 / 20
    errorSpikeThreshold := 5
    errorSpikeWindowSeconds := 60
    kellyFraction_mem := by decide +kernel
    maxKellySize_mem := by decide +kernel }
  fees := { takerRate := 7 / 100, assumeTaker := true }
  markets := { whitelistCategories := [], whitelistTickers := [] }
  displayTimezone := tz

end KalshiAgent
