import KalshiAgent.Lib.Splitting
import Mathlib.Data.Rat.Defs
import Mathlib.Tactic.Ring

/-! Decimal numbers as texts: what `str` makes of a finite `Decimal`, and how `Decimal` reads a text.
What is printed is read back with its sign and its exponent. -/

namespace Numerals
open Splitting

structure Number where
  neg : Bool
  coeff : ℕ
  exp : ℤ
  deriving DecidableEq

def Number.value (d : Number) : ℚ := (if d.neg then -(d.coeff : ℚ) else d.coeff) * 10 ^ d.exp

/-- What the reader takes for blanks and for digits, which is more than what is printed. -/
structure Alphabet where
  blank : Char → Bool
  digit : Char → Option ℕ
  blank_digitChar : ∀ n < 10, blank n.digitChar = false
  digit_digitChar : ∀ n < 10, digit n.digitChar = some n
  blank_mark : ∀ c ∈ ['+', '-', '.', 'E'], blank c = false
  digit_mark : ∀ c ∈ ['+', '-', '.', 'E'], digit c = none

section Print

def fixed (int : List Char) (place : ℤ) : List Char :=
  if place ≤ 0 then '0' :: '.' :: (List.replicate (-place).toNat '0' ++ int)
  else
    match int.drop place.toNat with
    | [] => int
    | frac => int.take place.toNat ++ '.' :: frac

def exponent (e : ℤ) : List Char :=
  if e = 0 then [] else 'E' :: (if e < 0 then '-' else '+') :: Nat.toDigits 10 e.natAbs

def Number.print (d : Number) : List Char :=
  let int := Nat.toDigits 10 d.coeff
  let left := d.exp + int.length
  let place := if d.exp ≤ 0 ∧ -6 < left then left else 1
  (if d.neg then ['-'] else []) ++ fixed int place ++ exponent (left - place)

end Print

section Read
variable (a : Alphabet)

def readSign : List Char → Bool × List Char
  | '-' :: cs => (true, cs)
  | '+' :: cs => (false, cs)
  | cs => (false, cs)

def readDigits (cs : List Char) : List ℕ × List Char :=
  let isDigit c := (a.digit c).isSome
  ((cs.takeWhile isDigit).filterMap a.digit, cs.dropWhile isDigit)

def ofDigits (digits : List ℕ) : ℕ := digits.foldl (fun n d => 10 * n + d) 0

def readExponent : List Char → Option ℤ
  | [] => some 0
  | c :: cs =>
    if c = 'E' ∨ c = 'e' then
      let (neg, cs) := readSign cs
      let (digits, rest) := readDigits a cs
      if digits = [] ∨ rest ≠ [] then none
      else some (if neg then -(ofDigits digits : ℤ) else ofDigits digits)
    else none

def readFraction : List Char → List ℕ × List Char
  | '.' :: cs => readDigits a cs
  | cs => ([], cs)

def readUnsigned (cs : List Char) : Option (ℕ × ℤ) :=
  let (int, rest) := readDigits a cs
  let (frac, rest) := readFraction a rest
  if int = [] ∧ frac = [] then none
  else (readExponent a rest).map fun e => (ofDigits (int ++ frac), e - frac.length)

/-- `Decimal(text)`, where that is a finite number. -/
def read (text : List Char) : Option Number :=
  let (neg, cs) := readSign ((trim a.blank text).filter (· ≠ '_'))
  (readUnsigned a cs).map fun (coeff, exp) => ⟨neg, coeff, exp⟩

end Read

def Numeral (cs : List Char) : Prop := ∀ c ∈ cs, ∃ n < 10, c = Nat.digitChar n

theorem numeral_toDigits (n : ℕ) : Numeral (Nat.toDigits 10 n) := by
  induction n using Nat.strong_induction_on with
  | _ n ih =>
    rw [Nat.toDigits_eq_if (by decide)]
    intro c hc
    split_ifs at hc with hlt
    · exact ⟨n, hlt, List.mem_singleton.mp hc⟩
    · rcases List.mem_append.mp hc with hc | hc
      · exact ih (n / 10) (Nat.div_lt_self (by omega) (by decide)) c hc
      · exact ⟨n % 10, Nat.mod_lt n (by decide), List.mem_singleton.mp hc⟩

theorem numeral_zeros (k : ℕ) : Numeral (List.replicate k '0') :=
  fun _ hc => ⟨0, by decide, List.eq_of_mem_replicate hc⟩

variable {a : Alphabet} {cs rest : List Char}

theorem Numeral.append {ds : List Char} (hcs : Numeral cs) (hds : Numeral ds) : Numeral (cs ++ ds) :=
  fun c hc => (List.mem_append.mp hc).elim (hcs c) (hds c)

theorem foldl_digit (h : Numeral cs) (n : ℕ) :
    (cs.filterMap a.digit).foldl (fun n d => 10 * n + d) n = Nat.ofDigitChars 10 cs n := by
  induction cs generalizing n with
  | nil => rfl
  | cons c cs ih =>
    obtain ⟨d, hd, rfl⟩ := h c List.mem_cons_self
    have hrest := ih (fun c hc => h c (List.mem_cons_of_mem _ hc)) (10 * n + d)
    rw [List.filterMap_cons_some (a.digit_digitChar d hd), List.foldl_cons, hrest,
      Nat.ofDigitChars_cons_digitChar_of_lt_ten hd]

theorem readDigits_append (h : Numeral cs) (hrest : Opens (fun c => (a.digit c).isSome) rest) :
    readDigits a (cs ++ rest) = (cs.filterMap a.digit, rest) := by
  have hdigits : ∀ c ∈ cs, (a.digit c).isSome = true := by
    intro c hc
    obtain ⟨d, hd, rfl⟩ := h c hc
    rw [a.digit_digitChar d hd]
    rfl
  rw [readDigits, takeWhile_append_of_opens hdigits hrest, dropWhile_append_of_opens hdigits hrest]

theorem filterMap_digit_length (h : Numeral cs) : (cs.filterMap a.digit).length = cs.length := by
  induction cs with
  | nil => rfl
  | cons c cs ih =>
    obtain ⟨d, hd, rfl⟩ := h c List.mem_cons_self
    rw [List.filterMap_cons_some (a.digit_digitChar d hd), List.length_cons, List.length_cons,
      ih fun c hc => h c (List.mem_cons_of_mem _ hc)]

theorem filterMap_digit_ne_nil (h : Numeral cs) (hne : cs ≠ []) : cs.filterMap a.digit ≠ [] := by
  intro hnil
  apply hne
  rw [← List.length_eq_zero_iff, ← filterMap_digit_length (a := a) h, hnil, List.length_nil]

theorem opens_mark {c : Char} (hc : c ∈ ['+', '-', '.', 'E']) :
    Opens (fun c => (a.digit c).isSome) (c :: cs) := by
  intro x hx
  cases hx
  show (a.digit c).isSome = false
  rw [a.digit_mark c hc]
  rfl

theorem opens_nil {p : Char → Bool} : Opens p [] := fun _ hc => absurd hc nofun

theorem opens_exponent (e : ℤ) : Opens (fun c => (a.digit c).isSome) (exponent e) := by
  unfold exponent
  split_ifs
  · exact opens_nil
  · exact opens_mark (by decide)
  · exact opens_mark (by decide)

theorem readExponent_signed {c : Char} {neg : Bool} (hsign : ∀ cs, readSign (c :: cs) = (neg, cs))
    (n : ℕ) :
    readExponent a ('E' :: c :: Nat.toDigits 10 n) = some (if neg then -(n : ℤ) else n) := by
  have hnumeral := numeral_toDigits n
  have hdigits : readDigits a (Nat.toDigits 10 n) = ((Nat.toDigits 10 n).filterMap a.digit, []) := by
    have hend := readDigits_append (a := a) hnumeral opens_nil
    rwa [List.append_nil] at hend
  have hsome : (Nat.toDigits 10 n).filterMap a.digit ≠ [] :=
    filterMap_digit_ne_nil hnumeral Nat.toDigits_ne_nil
  have hvalue : ofDigits ((Nat.toDigits 10 n).filterMap a.digit) = n := by
    rw [ofDigits, foldl_digit hnumeral, Nat.ofDigitChars_ten_toDigits]
  rw [readExponent, if_pos (.inl rfl), hsign]
  dsimp only
  rw [hdigits]
  dsimp only
  rw [if_neg (by simp [hsome]), hvalue]

theorem readExponent_exponent (e : ℤ) : readExponent a (exponent e) = some e := by
  unfold exponent
  split_ifs with hzero hneg
  · rw [hzero]
    rfl
  · have habs : -(e.natAbs : ℤ) = e := by omega
    rw [readExponent_signed (fun _ => rfl) e.natAbs, if_pos rfl, habs]
  · have habs : (e.natAbs : ℤ) = e := by omega
    rw [readExponent_signed (fun _ => rfl) e.natAbs, if_neg Bool.false_ne_true, habs]

theorem readUnsigned_int (h : Numeral cs) (hne : cs ≠ []) (e : ℤ) :
    readUnsigned a (cs ++ exponent e) = some (Nat.ofDigitChars 10 cs 0, e) := by
  have hfraction : readFraction a (exponent e) = ([], exponent e) := by
    unfold exponent
    split_ifs <;> rfl
  rw [readUnsigned, readDigits_append h (opens_exponent e)]
  dsimp only
  rw [hfraction]
  dsimp only
  rw [if_neg (fun hnil => filterMap_digit_ne_nil h hne hnil.1), readExponent_exponent, Option.map_some,
    List.append_nil, ofDigits, foldl_digit h, List.length_nil, Int.natCast_zero, sub_zero]

theorem readUnsigned_point {frac : List Char} (h : Numeral cs) (hne : cs ≠ []) (hfrac : Numeral frac)
    (e : ℤ) : readUnsigned a (cs ++ '.' :: frac ++ exponent e) =
      some (Nat.ofDigitChars 10 (cs ++ frac) 0, e - frac.length) := by
  have hfraction : readFraction a ('.' :: (frac ++ exponent e)) =
      (frac.filterMap a.digit, exponent e) := readDigits_append hfrac (opens_exponent e)
  rw [List.append_assoc, List.cons_append, readUnsigned, readDigits_append h (opens_mark (by decide))]
  dsimp only
  rw [hfraction]
  dsimp only
  rw [if_neg (fun hnil => filterMap_digit_ne_nil h hne hnil.1), readExponent_exponent, Option.map_some,
    ← List.filterMap_append, ofDigits, foldl_digit (h.append hfrac), filterMap_digit_length hfrac]

theorem readUnsigned_fixed (h : Numeral cs) (hne : cs ≠ []) {place : ℤ} (hplace : place ≤ cs.length)
    (e : ℤ) : readUnsigned a (fixed cs place ++ exponent e) =
      some (Nat.ofDigitChars 10 cs 0, e + place - cs.length) := by
  unfold fixed
  split_ifs with hsmall
  · -- zeros before the digits do not count
    have hzero : Numeral ['0'] := numeral_zeros 1
    have hread := readUnsigned_point (a := a) hzero (List.cons_ne_nil _ _)
      ((numeral_zeros (-place).toNat).append h) e
    have hvalue : Nat.ofDigitChars 10 (['0'] ++ (List.replicate (-place).toNat '0' ++ cs)) 0 =
        Nat.ofDigitChars 10 cs 0 := by
      have hfirst : Nat.ofDigitChars 10 ['0'] 0 = 0 := by decide
      rw [Nat.ofDigitChars_append, Nat.ofDigitChars_append, hfirst, Nat.ofDigitChars_replicate_zero,
        Nat.mul_zero]
    rw [hvalue, List.length_append, List.length_replicate] at hread
    apply hread.trans
    congr 2
    omega
  · have hpos : 0 < place := not_le.mp hsmall
    have hsplit := List.take_append_drop place.toNat cs
    have hlength : (cs.drop place.toNat).length = cs.length - place.toNat := List.length_drop
    split
    case h_1 hend =>
      rw [hend, List.length_nil] at hlength
      rw [readUnsigned_int h hne]
      congr 2
      omega
    case h_2 hfrac =>
      have htake : Numeral (cs.take place.toNat) := fun c hc => h c (List.mem_of_mem_take hc)
      have hdrop : Numeral (cs.drop place.toNat) := fun c hc => h c (List.mem_of_mem_drop hc)
      have hsome : cs.take place.toNat ≠ [] := by
        rw [ne_eq, List.take_eq_nil_iff, not_or]
        exact ⟨by omega, hne⟩
      rw [readUnsigned_point htake hsome hdrop, hsplit, hlength]
      congr 2
      omega

theorem digitChar_ne_mark {c : Char} (hc : c ∈ ['+', '-', '_']) (n : ℕ) : n.digitChar ≠ c := by
  simp only [List.mem_cons, List.not_mem_nil, or_false] at hc
  rcases hc with rfl | rfl | rfl
  · exact Nat.digitChar_ne '+' (by decide)
  · exact Nat.digitChar_ne '-' (by decide)
  · exact Nat.digitChar_ne '_' (by decide)

theorem readSign_digit {n : ℕ} : readSign (n.digitChar :: cs) = (false, n.digitChar :: cs) := by
  unfold readSign
  split
  case h_1 heq => exact absurd (List.cons.inj heq).1 (digitChar_ne_mark (by decide) n)
  case h_2 heq => exact absurd (List.cons.inj heq).1 (digitChar_ne_mark (by decide) n)
  case h_3 => rfl

def Printed (c : Char) : Prop := (∃ n < 10, c = Nat.digitChar n) ∨ c ∈ ['+', '-', '.', 'E']

theorem Numeral.printed (h : Numeral cs) : ∀ c ∈ cs, Printed c := fun c hc => .inl (h c hc)

theorem printed_fixed (h : Numeral cs) (place : ℤ) : ∀ c ∈ fixed cs place, Printed c := by
  have hpoint : Printed '.' := .inr (by decide)
  unfold fixed
  split_ifs with hsmall
  · intro c hc
    rcases List.mem_cons.mp hc with rfl | hc
    · exact .inl ⟨0, by decide, rfl⟩
    · rcases List.mem_cons.mp hc with rfl | hc
      · exact hpoint
      · exact ((numeral_zeros _).append h).printed c hc
  · split
    · exact h.printed
    · intro c hc
      rcases List.mem_append.mp hc with hc | hc
      · exact h.printed c (List.mem_of_mem_take hc)
      · rcases List.mem_cons.mp hc with rfl | hc
        · exact hpoint
        · exact h.printed c (List.mem_of_mem_drop hc)

theorem printed_exponent (e : ℤ) : ∀ c ∈ exponent e, Printed c := by
  unfold exponent
  split_ifs
  · exact fun c hc => absurd hc List.not_mem_nil
  all_goals
    intro c hc
    rcases List.mem_cons.mp hc with rfl | hc
    · exact .inr (by decide)
    · rcases List.mem_cons.mp hc with rfl | hc
      · exact .inr (by decide)
      · exact (numeral_toDigits _).printed c hc

theorem Printed.not_blank {c : Char} (h : Printed c) : a.blank c = false := by
  rcases h with ⟨n, hn, rfl⟩ | hmark
  · exact a.blank_digitChar n hn
  · exact a.blank_mark c hmark

theorem Printed.ne_underscore {c : Char} (h : Printed c) : c ≠ '_' := by
  rcases h with ⟨n, _, rfl⟩ | hmark
  · exact digitChar_ne_mark (by decide) n
  · rintro rfl
    exact absurd hmark (by decide)

theorem strip_printed (h : ∀ c ∈ cs, Printed c) : (trim a.blank cs).filter (· ≠ '_') = cs := by
  have htrim : trim a.blank cs = cs := by
    apply trim_eq_self
    · exact fun c hc => (h c (List.mem_of_mem_head? hc)).not_blank
    · exact fun c hc => (h c (List.mem_of_mem_getLast? hc)).not_blank
  rw [htrim, List.filter_eq_self]
  exact fun c hc => decide_eq_true (h c hc).ne_underscore

theorem fixed_eq_cons (h : Numeral cs) (hne : cs ≠ []) (place : ℤ) :
    ∃ n rest, fixed cs place = Nat.digitChar n :: rest := by
  obtain ⟨c, tail, rfl⟩ := List.exists_cons_of_ne_nil hne
  obtain ⟨n, _, rfl⟩ := h c List.mem_cons_self
  unfold fixed
  split_ifs with hsmall
  · exact ⟨0, _, rfl⟩
  · split
    · exact ⟨n, _, rfl⟩
    · obtain ⟨k, hk⟩ : ∃ k, place.toNat = k + 1 := ⟨place.toNat - 1, by omega⟩
      rw [hk, List.take_succ_cons]
      exact ⟨n, _, rfl⟩

/-- What is printed is read back, with its sign and its exponent. -/
theorem read_print (a : Alphabet) (d : Number) : read a d.print = some d := by
  have hnumeral := numeral_toDigits d.coeff
  have hne : Nat.toDigits 10 d.coeff ≠ [] := Nat.toDigits_ne_nil
  have hlength : 0 < (Nat.toDigits 10 d.coeff).length := Nat.length_toDigits_pos
  unfold Number.print
  dsimp only
  generalize hplace : (if d.exp ≤ 0 ∧ -6 < d.exp + (Nat.toDigits 10 d.coeff).length then
    d.exp + (Nat.toDigits 10 d.coeff).length else 1 : ℤ) = place
  have hle : place ≤ (Nat.toDigits 10 d.coeff).length := by
    split_ifs at hplace <;> omega
  have hprinted : ∀ c ∈ fixed (Nat.toDigits 10 d.coeff) place ++
      exponent (d.exp + (Nat.toDigits 10 d.coeff).length - place), Printed c := by
    intro c hc
    exact (List.mem_append.mp hc).elim (printed_fixed hnumeral _ c) (printed_exponent _ c)
  have hread := readUnsigned_fixed (a := a) hnumeral hne hle
    (d.exp + (Nat.toDigits 10 d.coeff).length - place)
  have hexp : d.exp + (Nat.toDigits 10 d.coeff).length - place + place -
      (Nat.toDigits 10 d.coeff).length = d.exp := by ring
  rw [Nat.ofDigitChars_ten_toDigits, hexp] at hread
  obtain ⟨n, rest, hfixed⟩ := fixed_eq_cons hnumeral hne place
  have hsign : readSign (fixed (Nat.toDigits 10 d.coeff) place ++
      exponent (d.exp + (Nat.toDigits 10 d.coeff).length - place)) = (false,
        fixed (Nat.toDigits 10 d.coeff) place ++
          exponent (d.exp + (Nat.toDigits 10 d.coeff).length - place)) := by
    rw [hfixed]
    exact readSign_digit
  rw [List.append_assoc]
  generalize fixed (Nat.toDigits 10 d.coeff) place ++
    exponent (d.exp + (Nat.toDigits 10 d.coeff).length - place) = body at hprinted hread hsign
  cases hneg : d.neg with
  | true =>
    have hminus : ∀ c ∈ '-' :: body, Printed c :=
      List.forall_mem_cons.mpr ⟨.inr (by decide), hprinted⟩
    have hminussign : readSign ('-' :: body) = (true, body) := rfl
    rw [if_pos rfl, List.singleton_append, read, strip_printed hminus, hminussign]
    dsimp only
    rw [hread, Option.map_some, ← hneg]
  | false =>
    rw [if_neg Bool.false_ne_true, List.nil_append, read, strip_printed hprinted, hsign]
    dsimp only
    rw [hread, Option.map_some, ← hneg]

def padded (k n : ℕ) : List Char :=
  List.replicate (k - (Nat.toDigits 10 n).length) '0' ++ Nat.toDigits 10 n

theorem padded_length {k n : ℕ} (hk : 0 < k) (hn : n < 10 ^ k) : (padded k n).length = k := by
  have hlength : (Nat.toDigits 10 n).length ≤ k := (Nat.length_toDigits_le_iff (by decide) hk).mpr hn
  rw [padded, List.length_append, List.length_replicate, Nat.sub_add_cancel hlength]

theorem padded_succ {k : ℕ} (hk : 0 < k) (n : ℕ) :
    padded (k + 1) n = padded k (n / 10) ++ [Nat.digitChar (n % 10)] := by
  rcases lt_or_ge n 10 with hlt | hge
  · have hzero : padded k 0 = List.replicate k '0' := by
      obtain ⟨j, rfl⟩ := Nat.exists_eq_add_of_lt hk
      rw [padded, Nat.toDigits_zero, Nat.zero_add, List.replicate_succ']
      rfl
    rw [Nat.div_eq_of_lt hlt, Nat.mod_eq_of_lt hlt, hzero, padded, Nat.toDigits_of_lt_base hlt]
    rfl
  · rw [padded, Nat.toDigits_of_base_le (by decide) hge, List.length_append, List.length_singleton,
      Nat.add_sub_add_right, ← List.append_assoc, padded]

theorem toDigits_eq_append_padded {k n : ℕ} (hk : 0 < k) (hn : 10 ^ k ≤ n) :
    Nat.toDigits 10 n = Nat.toDigits 10 (n / 10 ^ k) ++ padded k (n % 10 ^ k) := by
  induction k, hk using Nat.le_induction generalizing n with
  | base =>
    have hone : 10 ^ Nat.succ 0 = 10 := rfl
    rw [hone] at hn ⊢
    rw [Nat.toDigits_of_base_le (by decide) hn, padded,
      Nat.toDigits_of_lt_base (Nat.mod_lt n (by decide))]
    rfl
  | succ k hk ih =>
    have hten : 10 ≤ n := by
      rw [pow_succ] at hn
      exact (Nat.le_mul_of_pos_left 10 (Nat.pow_pos (by decide))).trans hn
    have hless : 10 ^ k ≤ n / 10 := by
      rw [Nat.le_div_iff_mul_le (by decide), ← pow_succ]
      exact hn
    have hhigh : n / 10 / 10 ^ k = n / 10 ^ (k + 1) := by
      rw [Nat.div_div_eq_div_mul, pow_succ, Nat.mul_comm]
    have hlow : n % 10 ^ (k + 1) / 10 = n / 10 % 10 ^ k := by
      rw [pow_succ, Nat.mul_comm, Nat.mod_mul_right_div_self]
    have hunit : n % 10 ^ (k + 1) % 10 = n % 10 := by
      rw [pow_succ, Nat.mod_mul_left_mod]
    rw [Nat.toDigits_of_base_le (by decide) hten, ih hless, hhigh, padded_succ hk, hlow, hunit,
      List.append_assoc]

theorem print_places {k : ℕ} (hk : 0 < k) (hk' : k ≤ 6) (neg : Bool) (n : ℕ) :
    Number.print ⟨neg, n, -k⟩ =
      (if neg then ['-'] else []) ++ Nat.toDigits 10 (n / 10 ^ k) ++ '.' :: padded k (n % 10 ^ k) := by
  have hpos : 0 < (Nat.toDigits 10 n).length := Nat.length_toDigits_pos
  have hplace : (-k : ℤ) ≤ 0 ∧ -6 < (-k : ℤ) + (Nat.toDigits 10 n).length := by omega
  have hnone : exponent 0 = [] := rfl
  unfold Number.print
  dsimp only
  rw [if_pos hplace, sub_self, hnone, List.append_nil, List.append_assoc]
  congr 1
  rcases lt_or_ge n (10 ^ k) with hlt | hge
  · have hlength : (Nat.toDigits 10 n).length ≤ k := (Nat.length_toDigits_le_iff (by decide) hk).mpr hlt
    have hsmall : (-k : ℤ) + (Nat.toDigits 10 n).length ≤ 0 := by omega
    have hzeros : (-((-k : ℤ) + (Nat.toDigits 10 n).length)).toNat = k - (Nat.toDigits 10 n).length := by
      omega
    rw [fixed, if_pos hsmall, hzeros, Nat.div_eq_of_lt hlt, Nat.mod_eq_of_lt hlt, Nat.toDigits_zero]
    rfl
  · have hsplit := toDigits_eq_append_padded hk hge
    have hlow : (padded k (n % 10 ^ k)).length = k :=
      padded_length hk (Nat.mod_lt n (Nat.pow_pos (by decide)))
    have hhigh : 0 < (Nat.toDigits 10 (n / 10 ^ k)).length := Nat.length_toDigits_pos
    have hlength : (Nat.toDigits 10 n).length = (Nat.toDigits 10 (n / 10 ^ k)).length + k := by
      rw [hsplit, List.length_append, hlow]
    have hlarge : ¬ (-k : ℤ) + (Nat.toDigits 10 n).length ≤ 0 := by omega
    have htoNat : ((-k : ℤ) + (Nat.toDigits 10 n).length).toNat =
        (Nat.toDigits 10 (n / 10 ^ k)).length := by omega
    rw [fixed, if_neg hlarge, htoNat, hsplit, List.drop_left, List.take_left]
    split
    case h_1 hnil =>
      rw [hnil] at hlow
      exact absurd hlow hk.ne
    case h_2 => rfl

end Numerals
