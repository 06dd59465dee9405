import Mathlib.Data.Nat.Notation

/-! Texts and their characters as Python reads them. -/

namespace KalshiAgent

def isSpace (c : Char) : Bool :=
  (0x09 ≤ c.toNat ∧ c.toNat ≤ 0x0d) ∨ (0x1c ≤ c.toNat ∧ c.toNat ≤ 0x20) ∨ c.toNat = 0x85 ∨
    c.toNat = 0xa0 ∨ c.toNat = 0x1680 ∨ (0x2000 ≤ c.toNat ∧ c.toNat ≤ 0x200a) ∨
    c.toNat = 0x2028 ∨ c.toNat = 0x2029 ∨ c.toNat = 0x202f ∨ c.toNat = 0x205f ∨ c.toNat = 0x3000

/-- `c.lower()`, where that is an ASCII character: besides the capital letters it is one of the Kelvin
sign only. Any other character stays one that is not ASCII. -/
def lowerChar (c : Char) : Char := if c.toNat = 0x212a then 'k' else c.toLower

def lower (s : String) : String := String.ofList (s.toList.map lowerChar)

def given : Option String → Bool
  | none => false
  | some text => text ≠ ""

end KalshiAgent
