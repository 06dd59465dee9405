import KalshiAgent.Lib.Rounding

/-! Binary floating point of 64 bits, a finite number being its value: signs of zeros and what
overflows are left out. `repr` is the decimal that is written for a number, `sum` the sum of a list
as the interpreter computes it. -/

namespace Binary64
open Rounding

def exponent (x : ℚ) : ℤ :=
  let e : ℤ := x.num.natAbs.log2 - x.den.log2
  if |x| < 2 ^ e then e - 1 else e

def ulp (x : ℚ) : ℚ := 2 ^ max (exponent x - 52) (-1074)

/-- The number nearest to `x`, ties to even. -/
def round (x : ℚ) : ℚ := roundHalfEven (x / ulp x) * ulp x

def add (x y : ℚ) : ℚ := round (x + y)

def mul (x y : ℚ) : ℚ := round (x * y)

/-- From the exponent `k` down, the shortest decimal that is read back as `x`. -/
def shortest (x : ℚ) : ℕ → ℤ → ℚ
  | 0, _ => x
  | fuel + 1, k =>
    let nearest := roundHalfEven (x / 10 ^ k)
    let other := if nearest = ⌊x / 10 ^ k⌋ then nearest + 1 else nearest - 1
    if round (nearest * 10 ^ k) = x then nearest * 10 ^ k
    -- below a power of two the numbers lie closer together than above it
    else if round (other * 10 ^ k) = x then other * 10 ^ k
    else shortest x fuel (k - 1)

/-- The decimal that is written for `x`, of 17 digits at most. -/
def repr (x : ℚ) : ℚ :=
  let top := max (exponent x) 0 / 3 + 1
  shortest x (top.toNat + 345) top

/-- How a list is summed up: one addition after the other, or with the lost parts of the additions
kept apart and added at the end. -/
inductive Summation
  | naive
  | compensated
  deriving DecidableEq

/-- One compensated addition: the sum so far, and what the additions have lost. -/
def compensate (total : ℚ × ℚ) (x : ℚ) : ℚ × ℚ :=
  let t := add total.1 x
  let lost := if |x| ≤ |total.1| then add (add total.1 (-t)) x else add (add x (-t)) total.1
  (t, add total.2 lost)

def Summation.sum : Summation → List ℚ → ℚ
  | .naive, xs => xs.foldl add 0
  | .compensated, xs =>
    let (hi, lo) := xs.foldl compensate (0, 0)
    add hi lo

/-- The sum of a column: the numbers are read from their decimals, and the sum is written as one. -/
def Summation.columnSum (how : Summation) (xs : List ℚ) : ℚ := repr (how.sum (xs.map round))

example (how : Summation) : how.columnSum [1 / 10, 7 / 10] = 7999999999999999 / 10000000000000000 := by
  cases how <;> decide +kernel

end Binary64
