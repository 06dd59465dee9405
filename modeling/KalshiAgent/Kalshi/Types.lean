import KalshiAgent.Lib.Rounding
import Mathlib.Tactic.FieldSimp
import Mathlib.Tactic.Ring

/-! Wire types of the exchange, and the two conversions between its decimal strings and
exact decimals. A decimal is a rational number: sums and products of prices and of 64-bit contract
counts stay within the 28 digits of a `Decimal`, and quotients are taken without its rounding. -/

namespace KalshiAgent
open Rounding

abbrev Ticker := String

/-- Microseconds since the epoch. The times of the wire are in UTC: the tables keep the wall clock of
a time and drop its offset. -/
abbrev Time := ℤ

def epochSecond (t : Time) : ℤ := t.tdiv 1000000

/-- A decimal string as the program meets it: `""` is falsy, and some texts `Decimal` rejects.
The exchange sends no NaN and no infinity. -/
inductive DecimalText
  | empty
  | invalid
  | decimal (d : ℚ)
  deriving DecidableEq

/-- `Decimal(str(s))`; `none` is `decimal.InvalidOperation`. -/
def priceStrToDecimal : DecimalText → Option ℚ
  | .empty => none
  | .invalid => none
  | .decimal d => some d

/-- `raw` when it is a non-empty string: what `if not raw` lets through. -/
def truthy : Option DecimalText → Option DecimalText
  | none => none
  | some .empty => none
  | some s => some s

/-- A decimal string with four places, the form in which the tables keep dollar amounts. -/
structure Dollars4 where
  units : ℤ
  deriving DecidableEq

namespace Dollars4

def toDecimal (s : Dollars4) : ℚ := s.units / 10000

def zero : Dollars4 := ⟨0⟩

def text (s : Dollars4) : String :=
  let n := s.units.natAbs
  let frac := toString (n % 10000)
  (if s.units < 0 then "-" else "") ++ toString (n / 10000) ++ "." ++
    String.ofList (List.replicate (4 - frac.length) '0') ++ frac

@[simp] theorem toDecimal_zero : zero.toDecimal = 0 := by simp [toDecimal, zero]

end Dollars4

def priceDecimalToStr (d : ℚ) : Dollars4 := ⟨roundHalfEven (d * 10000)⟩

def FourPlaces (d : ℚ) : Prop := ∃ k : ℤ, d * 10000 = k

instance (d : ℚ) : Decidable (FourPlaces d) :=
  decidable_of_iff (d * 10000 = (⌊d * 10000⌋ : ℤ))
    ⟨fun h => ⟨_, h⟩, fun ⟨k, hk⟩ => by rw [hk, Int.floor_intCast]⟩

theorem Dollars4.fourPlaces_toDecimal (s : Dollars4) : FourPlaces s.toDecimal :=
  ⟨s.units, by simp [toDecimal]⟩

theorem toDecimal_priceDecimalToStr {d : ℚ} (h : FourPlaces d) :
    (priceDecimalToStr d).toDecimal = d := by
  obtain ⟨k, hk⟩ := h
  simp only [priceDecimalToStr, Dollars4.toDecimal, hk, roundHalfEven_intCast]
  linarith

theorem abs_priceDecimalToStr_sub_le (d : ℚ) : |(priceDecimalToStr d).toDecimal - d| ≤ 1 / 20000 := by
  have h := abs_roundHalfEven_sub_le (d * 10000)
  rw [abs_le] at h ⊢
  simp only [priceDecimalToStr, Dollars4.toDecimal]
  constructor <;> linarith

theorem le_priceDecimalToStr {lo d : ℚ} (hlo : FourPlaces lo) (h : lo ≤ d) :
    lo ≤ (priceDecimalToStr d).toDecimal := by
  obtain ⟨k, hk⟩ := hlo
  have hk' : k ≤ roundHalfEven (d * 10000) := le_roundHalfEven (by linarith)
  have : (k : ℚ) ≤ roundHalfEven (d * 10000) := by exact_mod_cast hk'
  simp only [priceDecimalToStr, Dollars4.toDecimal]
  linarith

theorem priceDecimalToStr_le {hi d : ℚ} (hhi : FourPlaces hi) (h : d ≤ hi) :
    (priceDecimalToStr d).toDecimal ≤ hi := by
  obtain ⟨k, hk⟩ := hhi
  have hk' : roundHalfEven (d * 10000) ≤ k := roundHalfEven_le (by linarith)
  have : (roundHalfEven (d * 10000) : ℚ) ≤ k := by exact_mod_cast hk'
  simp only [priceDecimalToStr, Dollars4.toDecimal]
  linarith

theorem fourPlaces_zero : FourPlaces 0 := ⟨0, by simp⟩

inductive Side
  | yes
  | no
  deriving DecidableEq

inductive Action
  | buy
  | sell
  deriving DecidableEq

namespace Side

def sign : Side → ℤ
  | yes => 1
  | no => -1

def text : Side → String
  | yes => "yes"
  | no => "no"

def upper : Side → String
  | yes => "YES"
  | no => "NO"

theorem sign_mul_self (s : Side) : s.sign * s.sign = 1 := by cases s <;> rfl

theorem sign_eq_neg {s t : Side} (h : s ≠ t) : t.sign = -s.sign := by
  cases s <;> cases t <;> first | rfl | exact absurd rfl h

end Side

def Action.text : Action → String
  | .buy => "buy"
  | .sell => "sell"

structure KalshiPosition where
  ticker : Ticker
  -- signed: positive for YES holdings, negative for NO holdings
  position : ℤ
  realizedPnlDollars : Option DecimalText
  deriving DecidableEq

structure KalshiFill where
  tradeId : Option String
  orderId : String
  ticker : Ticker
  side : Side
  action : Action
  count : ℤ
  yesPriceDollars : Option DecimalText
  noPriceDollars : Option DecimalText
  isTaker : Bool
  createdTime : Option Time
  deriving DecidableEq

end KalshiAgent
