import Mathlib.Algebra.Order.Field.Rat
import Mathlib.Tactic.NormNum

/-! Decoded JSON, and what the program does to a value of a shape it does not know: `float`, the
truth of a value, and `.get` and `[0]` with the exceptions that they raise. -/

namespace KalshiAgent

inductive PyError
  | keyError
  | typeError
  | valueError
  | overflowError
  | attributeError
  | jsonDecodeError
  -- `decimal.InvalidOperation` and `decimal.Overflow`, the traps of the default context
  | invalidOperation
  | overflow
  | other (message : String)
  deriving DecidableEq

def floatBound : ℚ := 2 ^ 1024

theorem lt_floatBound {x : ℚ} (h : x ≤ 2 ^ 64) : x < floatBound :=
  h.trans_lt (pow_lt_pow_right₀ one_lt_two (by decide))

/-- A float. A finite one is the decimal that its `repr` shows. -/
inductive PyFloat
  | finite (x : ℚ) (bound : |x| < floatBound)
  | posInf
  | negInf
  | nan
  deriving DecidableEq

inductive Json
  | null
  | bool (b : Bool)
  | int (n : ℤ)
  | float (x : PyFloat)
  | str (s : String)
  | arr (items : List Json)
  | obj (fields : List (String × Json))

structure FloatReads where
  -- `none` is OverflowError
  ofInt : ℤ → Option PyFloat
  -- `none` is ValueError
  ofStr : String → Option PyFloat

def PyFloat.zero : PyFloat := .finite 0 (lt_floatBound (by norm_num))

def PyFloat.one : PyFloat := .finite 1 (lt_floatBound (by norm_num))

namespace Json

def truthy : Json → Bool
  | .null => false
  | .bool b => b
  | .int n => n ≠ 0
  | .float x => x ≠ .zero
  | .str s => s ≠ ""
  | .arr items => !items.isEmpty
  | .obj fields => !fields.isEmpty

def get (key : String) : Json → Except PyError Json
  | .obj fields => .ok ((fields.lookup key).getD .null)
  | _ => .error .attributeError

def head : Json → Except PyError Json
  | .arr (item :: _) => .ok item
  | .arr [] => .error (.other "list index out of range")
  | .str s =>
    match s.toList with
    | c :: _ => .ok (.str (String.ofList [c]))
    | [] => .error (.other "string index out of range")
  | .obj _ => .error .keyError
  | _ => .error .typeError

def item (key : String) : Json → Except PyError Json
  | .obj fields =>
    match fields.lookup key with
    | some value => .ok value
    | none => .error .keyError
  | _ => .error .typeError

def toFloat (reads : FloatReads) : Json → Except PyError PyFloat
  | .bool b => .ok (if b then .one else .zero)
  | .int n =>
    match reads.ofInt n with
    | some x => .ok x
    | none => .error .overflowError
  | .float x => .ok x
  | .str s =>
    match reads.ofStr s with
    | some x => .ok x
    | none => .error .valueError
  | _ => .error .typeError

end Json

end KalshiAgent
