import Mathlib.Algebra.Order.Round
import Mathlib.Data.Rat.Floor
import Mathlib.Algebra.Order.Field.Basic
import Mathlib.Tactic.Linarith
import Mathlib.Tactic.NormNum

/-! Rounding to the nearest integer with ties to even, over any ordered field with a
floor. Only the facts a fixed-point ledger needs: integers are fixed, an integer bound
survives, and the error is at most one half. -/

namespace Rounding

variable {α : Type*} [Field α] [LinearOrder α] [IsStrictOrderedRing α] [FloorRing α]

def roundHalfEven (x : α) : ℤ :=
  if Int.fract x < 1 / 2 then ⌊x⌋
  else if 1 / 2 < Int.fract x then ⌊x⌋ + 1
  else if ⌊x⌋ % 2 = 0 then ⌊x⌋
  else ⌊x⌋ + 1

omit [IsStrictOrderedRing α] in
theorem roundHalfEven_eq_floor_or (x : α) :
    (roundHalfEven x = ⌊x⌋ ∧ Int.fract x ≤ 1 / 2) ∨
      (roundHalfEven x = ⌊x⌋ + 1 ∧ 1 / 2 ≤ Int.fract x) := by
  unfold roundHalfEven
  split_ifs with hlow hhigh heven
  · exact .inl ⟨rfl, hlow.le⟩
  · exact .inr ⟨rfl, hhigh.le⟩
  · exact .inl ⟨rfl, not_lt.mp hhigh⟩
  · exact .inr ⟨rfl, not_lt.mp hlow⟩

@[simp] theorem roundHalfEven_intCast (n : ℤ) : roundHalfEven (n : α) = n := by
  simp [roundHalfEven]

theorem abs_roundHalfEven_sub_le (x : α) : |(roundHalfEven x : α) - x| ≤ 1 / 2 := by
  have hfloor := Int.floor_add_fract x
  have hlow := Int.fract_nonneg x
  have hhigh := (Int.fract_lt_one x).le
  rcases roundHalfEven_eq_floor_or x with ⟨hr, hf⟩ | ⟨hr, hf⟩
  · rw [hr, abs_le]
    constructor <;> linarith
  · rw [hr, Int.cast_add, Int.cast_one, abs_le]
    constructor <;> linarith

omit [IsStrictOrderedRing α] in
theorem le_roundHalfEven {n : ℤ} {x : α} (h : (n : α) ≤ x) : n ≤ roundHalfEven x := by
  have hn : n ≤ ⌊x⌋ := Int.le_floor.mpr h
  rcases roundHalfEven_eq_floor_or x with ⟨hr, _⟩ | ⟨hr, _⟩ <;> omega

theorem roundHalfEven_le {n : ℤ} {x : α} (h : x ≤ (n : α)) : roundHalfEven x ≤ n := by
  have hfloor : ⌊x⌋ ≤ n := by
    have := Int.floor_le_floor h
    rwa [Int.floor_intCast] at this
  rcases roundHalfEven_eq_floor_or x with ⟨hr, _⟩ | ⟨hr, hf⟩
  · omega
  · rcases hfloor.lt_or_eq with hlt | heq
    · omega
    · -- `x` has floor `n` and is at most `n`, so its fractional part is zero
      have hx := Int.floor_add_fract x
      rw [heq] at hx
      have : Int.fract x ≤ 0 := by linarith
      linarith

theorem roundHalfEven_le_of_lt {n : ℤ} {x : α} (h : x < n + 1 / 2) : roundHalfEven x ≤ n := by
  have hclose := abs_le.mp (abs_roundHalfEven_sub_le x)
  have hlt : (roundHalfEven x : α) < ((n + 1 : ℤ) : α) := by
    push_cast
    linarith [hclose.2]
  exact Int.lt_add_one_iff.mp (Int.cast_lt.mp hlt)

theorem le_roundHalfEven_of_lt {n : ℤ} {x : α} (h : (n : α) - 1 / 2 < x) : n ≤ roundHalfEven x := by
  have hclose := abs_le.mp (abs_roundHalfEven_sub_le x)
  have hlt : ((n - 1 : ℤ) : α) < (roundHalfEven x : α) := by
    push_cast
    linarith [hclose.1]
  exact Int.sub_one_lt_iff.mp (Int.cast_lt.mp hlt)

theorem le_roundHalfEven_of_even {n : ℤ} {x : α} (hn : n % 2 = 0) (h : (n : α) - 1 / 2 ≤ x) :
    n ≤ roundHalfEven x := by
  rcases h.lt_or_eq with hlt | heq
  · exact le_roundHalfEven_of_lt hlt
  · have hfloor : ⌊x⌋ = n - 1 := by
      rw [Int.floor_eq_iff]
      push_cast
      constructor <;> linarith
    have hfract : Int.fract x = 1 / 2 := by
      rw [Int.fract, hfloor]
      push_cast
      linarith
    rw [roundHalfEven, hfract, hfloor, if_neg (lt_irrefl _), if_neg (lt_irrefl _), if_neg (by omega)]
    omega

theorem roundHalfEven_le_of_even {n : ℤ} {x : α} (hn : n % 2 = 0) (h : x ≤ n + 1 / 2) :
    roundHalfEven x ≤ n := by
  rcases h.lt_or_eq with hlt | heq
  · exact roundHalfEven_le_of_lt hlt
  · have hfloor : ⌊x⌋ = n := by
      rw [Int.floor_eq_iff]
      constructor <;> linarith
    have hfract : Int.fract x = 1 / 2 := by
      rw [Int.fract, hfloor]
      linarith
    rw [roundHalfEven, hfract, hfloor, if_neg (lt_irrefl _), if_neg (lt_irrefl _), if_pos hn]

def truncate (x : α) : ℤ := if 0 ≤ x then ⌊x⌋ else ⌈x⌉

omit [IsStrictOrderedRing α] in
theorem truncate_le {x : α} (h : 0 ≤ x) : (truncate x : α) ≤ x := by
  rw [truncate, if_pos h]
  exact Int.floor_le x

omit [IsStrictOrderedRing α] in
theorem lt_truncate_add_one {x : α} (h : 0 ≤ x) : x < truncate x + 1 := by
  rw [truncate, if_pos h]
  exact Int.lt_floor_add_one x

omit [IsStrictOrderedRing α] in
theorem truncate_nonpos {x : α} (h : x ≤ 0) : truncate x ≤ 0 := by
  unfold truncate
  split_ifs
  · exact Int.floor_nonpos h
  · exact Int.ceil_le.mpr (by simpa using h)

omit [IsStrictOrderedRing α] in
theorem truncate_mono {x y : α} (h : x ≤ y) : truncate x ≤ truncate y := by
  unfold truncate
  split_ifs with hx hy hy
  · exact Int.floor_le_floor h
  · exact absurd (hx.trans h) hy
  · exact (Int.ceil_nonpos.mpr (not_le.mp hx).le).trans (Int.floor_nonneg.mpr hy)
  · exact Int.ceil_le_ceil h

end Rounding
