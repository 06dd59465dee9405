import KalshiAgent.Kalshi.Types
import KalshiAgent.Lib.Numerals
import KalshiAgent.Lib.Text

/-! The dollar amounts as the texts that the tables and the exchange get. What one part of the program
writes with `price_decimal_to_str`, another reads with `Decimal`. -/

namespace KalshiAgent
open Numerals Rounding

/-- `d.quantize(Decimal('0.0001'))`, which keeps the sign of an amount that rounds to zero. -/
def quantized (d : ℚ) : Number := ⟨decide (d < 0), (priceDecimalToStr d).units.natAbs, -4⟩

/-- `quantize` raises where the digits are more than the context's 28. -/
def priceText (d : ℚ) : Option (List Char) :=
  if (quantized d).coeff < 10 ^ 28 then some (quantized d).print else none

theorem value_quantized (d : ℚ) : (quantized d).value = (priceDecimalToStr d).toDecimal := by
  have hscale : (10 : ℚ) ^ (-4 : ℤ) = 1 / 10000 := by norm_num
  have hsigned : (if decide (d < 0) = true then -((priceDecimalToStr d).units.natAbs : ℚ)
      else ((priceDecimalToStr d).units.natAbs : ℚ)) = (priceDecimalToStr d).units := by
    rcases lt_or_ge d 0 with hneg | hpos
    · have hunits : (priceDecimalToStr d).units ≤ 0 := by
        apply roundHalfEven_le
        rw [Int.cast_zero]
        linarith
      rw [if_pos (decide_eq_true hneg), Nat.cast_natAbs, abs_of_nonpos hunits, Int.cast_neg, neg_neg]
    · have hunits : 0 ≤ (priceDecimalToStr d).units := by
        apply le_roundHalfEven
        rw [Int.cast_zero]
        linarith
      rw [if_neg (by simpa using hpos), Nat.cast_natAbs, abs_of_nonneg hunits]
  rw [Number.value, quantized]
  dsimp only
  rw [hsigned, hscale, mul_one_div, Dollars4.toDecimal]

theorem units_neg_iff {d : ℚ} (h : d < 0 → (priceDecimalToStr d).units ≠ 0) :
    d < 0 ↔ (priceDecimalToStr d).units < 0 := by
  constructor
  · intro hneg
    have hunits : (priceDecimalToStr d).units ≤ 0 := by
      apply roundHalfEven_le
      rw [Int.cast_zero]
      linarith
    exact lt_of_le_of_ne hunits (h hneg)
  · intro hneg
    by_contra hpos
    have hunits : 0 ≤ (priceDecimalToStr d).units := by
      apply le_roundHalfEven
      rw [Int.cast_zero]
      linarith
    exact absurd hneg (not_lt.mpr hunits)

theorem print_quantized {d : ℚ} (h : d < 0 → (priceDecimalToStr d).units ≠ 0) :
    (quantized d).print = (priceDecimalToStr d).text.toList := by
  have hsign : decide (d < 0) = decide ((priceDecimalToStr d).units < 0) :=
    decide_eq_decide.mpr (units_neg_iff h)
  have hplaces := print_places (k := 4) (by decide) (by decide)
    (decide ((priceDecimalToStr d).units < 0)) (priceDecimalToStr d).units.natAbs
  have hminus : (if (priceDecimalToStr d).units < 0 then "-" else "").toList =
      if decide ((priceDecimalToStr d).units < 0) = true then ['-'] else [] := by
    by_cases hneg : (priceDecimalToStr d).units < 0
    · rw [if_pos hneg, if_pos (decide_eq_true hneg)]
      rfl
    · rw [if_neg hneg, if_neg (by simpa using hneg)]
      rfl
  have hpoint : ".".toList = ['.'] := rfl
  have htenThousand : 10 ^ 4 = 10000 := rfl
  rw [quantized, hsign]
  apply hplaces.trans
  simp only [Dollars4.text, String.toList_append, hminus, Nat.toString_eq_repr, String.toList_ofList,
    padded, Nat.repr_eq_ofList_toDigits, String.length_ofList, hpoint, htenThousand, List.append_assoc,
    List.cons_append, List.nil_append]

def asciiAlphabet : Alphabet where
  blank := isSpace
  digit c := if c.isDigit then some (c.toNat - 48) else none
  blank_digitChar := by decide
  digit_digitChar := by decide
  blank_mark := by simp [isSpace]
  digit_mark := by simp

/-- An amount reads back as itself to four places, exactly where it has no more. -/
theorem price_readsBack (a : Alphabet) {d : ℚ} {text : List Char} (h : priceText d = some text) :
    ∃ x, read a text = some x ∧ |x.value - d| ≤ 1 / 20000 ∧ (FourPlaces d → x.value = d) := by
  have htext : (quantized d).print = text := by
    unfold priceText at h
    split_ifs at h
    exact Option.some.inj h
  refine ⟨quantized d, ?_, ?_, fun hplaces => ?_⟩
  · rw [← htext]
    exact read_print a (quantized d)
  · rw [value_quantized]
    exact abs_priceDecimalToStr_sub_le d
  · rw [value_quantized]
    exact toDecimal_priceDecimalToStr hplaces

theorem price_readsBack_cents : ∃ x, read asciiAlphabet "-0.6500".toList = some x ∧
    |x.value - -13 / 20| ≤ 1 / 20000 ∧ (FourPlaces (-13 / 20) → x.value = -13 / 20) :=
  price_readsBack asciiAlphabet (by decide +kernel)

example : read asciiAlphabet " 6_5e-02\n".toList = some ⟨false, 65, -2⟩ := by
  decide +kernel

end KalshiAgent
