import Mathlib.Tactic.FieldSimp
import RecordLiteral.Proofs.Tokens
import RecordLiteral.Proofs.Worth
import RecordLiteral.Value.Literal

/-! # Decimals without exponents

The literal of a finite decimal is a decimal fraction: digits, with a point in front of the
last of them when the exponent is negative. Read as such it is worth what the decimal is,
and the sign and the number of places are the decimal's own.
-/
namespace RecordLiteral

/-- Digits in front of a point and behind it. -/
structure Fraction where
  negative : Bool
  whole : List Char
  places : List Char
  deriving DecidableEq

namespace Fraction

variable {negative : Bool} {whole places rest : List Char}

def worth (x : Fraction) : ℚ :=
  withSign x.negative
    (Nat.ofDigitChars 10 x.whole 0 + Nat.ofDigitChars 10 x.places 0 / 10 ^ x.places.length)

/-- At least one digit, and what is behind the digits. -/
def digits? (text : List Char) : Option (List Char × List Char) :=
  if (text.takeWhile Char.isDigit).isEmpty then none
  else some (text.takeWhile Char.isDigit, text.dropWhile Char.isDigit)

/-- The digits behind a point, if there is a point. -/
def places? : List Char → Option (List Char × List Char)
  | '.' :: rest => digits? rest
  | text => some ([], text)

def unsigned? (negative : Bool) (text : List Char) : Option Fraction := do
  let (whole, rest) ← digits? text
  let (places, rest) ← places? rest
  if rest = Literal.decimalSuffix then some ⟨negative, whole, places⟩ else none

/-- Reads the literal of a decimal: a decimal fraction in front of its mark. -/
def read? : List Char → Option Fraction
  | '-' :: rest => unsigned? true rest
  | text => unsigned? false text

/-- The digits as one number, over a power of ten for those behind the point. -/
theorem worth_eq (x : Fraction) : x.worth =
    withSign x.negative (Nat.ofDigitChars 10 (x.whole ++ x.places) 0 / 10 ^ x.places.length) := by
  have hdigits : (Nat.ofDigitChars 10 (x.whole ++ x.places) 0 : ℚ) =
      10 ^ x.places.length * Nat.ofDigitChars 10 x.whole 0 + Nat.ofDigitChars 10 x.places 0 := by
    rw [Nat.ofDigitChars_append, Nat.ofDigitChars_eq_ofDigitChars_zero (l := x.places)]
    push_cast
    rfl
  rw [worth, hdigits, add_div, mul_div_cancel_left₀ _ (pow_ne_zero _ (by norm_num))]

theorem digits?_append (hne : whole ≠ []) (hd : ∀ c ∈ whole, c.isDigit = true)
    (hr : NoDigit rest) : digits? (whole ++ rest) = some (whole, rest) := by
  rw [digits?, takeWhile_append_stop hd hr, dropWhile_append_stop hd hr, if_neg]
  simpa using hne

theorem unsigned?_fraction (hne : whole ≠ []) (hd : ∀ c ∈ whole ++ places, c.isDigit = true)
    {p : Prop} [Decidable p] (hp : p ↔ places ≠ []) :
    unsigned? negative (whole ++ ((if p then '.' :: places else []) ++ Literal.decimalSuffix)) =
      some ⟨negative, whole, places⟩ := by
  have hw : ∀ c ∈ whole, c.isDigit = true := fun c hc => hd c (List.mem_append_left _ hc)
  have hsuffix : NoDigit Literal.decimalSuffix := noDigit_cons rfl _
  by_cases h : p
  · have hpoint : NoDigit ('.' :: (places ++ Literal.decimalSuffix)) := noDigit_cons rfl _
    have hplaces := digits?_append (hp.mp h) (fun c hc => hd c (List.mem_append_right _ hc)) hsuffix
    simp only [unsigned?, if_pos h, List.cons_append, digits?_append hne hw hpoint, places?,
      hplaces, Option.bind_eq_bind, Option.bind_some, if_true]
  · have hnil : places = [] := not_not.mp (mt hp.mpr h)
    simp only [unsigned?, if_neg h, List.nil_append, digits?_append hne hw hsuffix, hnil,
      Option.bind_eq_bind, Option.bind_some]
    rfl

theorem read?_signText {text : List Char} (h : text.head? ≠ some '-') :
    read? (Decimal.signText negative ++ text) = unsigned? negative text := by
  cases negative with
  | true => rfl
  | false =>
    change read? text = _
    unfold read?
    split
    · exact absurd rfl h
    · rfl

end Fraction

namespace Decimal

theorem pointed_shape (digits : List Char) (count : Nat) :
    ∃ whole places, pointed digits count = whole ++ '.' :: places ∧ whole ≠ [] ∧
      places.length = count ∧ whole ++ places = digits.leftpad (count + 1) '0' := by
  have hlen : count + 1 ≤ (digits.leftpad (count + 1) '0').length := by
    rw [List.length_leftpad]
    exact Nat.le_max_left _ _
  refine ⟨_, _, rfl, ?_, ?_, List.take_append_drop _ _⟩
  · rw [← List.length_pos_iff, List.length_take]
    omega
  · rw [List.length_drop]
    omega

theorem fixedPoint_ofNat (coefficient exponent : Nat) :
    fixedPoint coefficient (.ofNat exponent) = Numeral.natural (coefficient * 10 ^ exponent) := by
  rw [fixedPoint]
  split
  · rw [‹coefficient = 0›, Nat.zero_mul]
  · rfl

/-- What is written has the digits of the coefficient, with as many places as the exponent is
negative. -/
theorem fixedPoint_shape (coefficient : Nat) (exponent : Int) : ∃ whole places,
    fixedPoint coefficient exponent = whole ++ (if exponent < 0 then '.' :: places else []) ∧
      whole ≠ [] ∧ (∀ c ∈ whole ++ places, c.isDigit = true) ∧
      places.length = (-exponent).toNat ∧
      (Nat.ofDigitChars 10 (whole ++ places) 0 : ℚ) =
        coefficient * 10 ^ (exponent + places.length) := by
  cases exponent with
  | ofNat exponent =>
    have hexponent : ¬ Int.ofNat exponent < 0 := Int.not_lt.mpr (Int.natCast_nonneg exponent)
    refine ⟨Numeral.natural (coefficient * 10 ^ exponent), [], ?_, Nat.toDigits_ne_nil, ?_, ?_, ?_⟩
    · rw [fixedPoint_ofNat, if_neg hexponent, List.append_nil]
    · rw [List.append_nil]
      exact fun c => Numeral.isDigit_of_mem_natural
    · simp
    · rw [List.append_nil, Numeral.natural, Nat.ofDigitChars_ten_toDigits]
      simp
  | negSucc count =>
    obtain ⟨whole, places, htext, hne, hlen, hpadded⟩ :=
      pointed_shape (Numeral.natural coefficient) (count + 1)
    refine ⟨whole, places, ?_, hne, ?_, hlen, ?_⟩
    · rw [fixedPoint, htext, if_pos (Int.negSucc_lt_zero count)]
    · rw [hpadded]
      exact fun c => Numeral.isDigit_of_mem_leftpad fun _ => Numeral.isDigit_of_mem_natural
    · have hzero : Int.negSucc count + (places.length : Int) = 0 := by omega
      rw [hpadded, Numeral.ofDigitChars_leftpad, Numeral.natural, Nat.ofDigitChars_ten_toDigits,
        hzero, zpow_zero, mul_one]

end Decimal

/-- The decimals other than the infinite and the undefined ones. -/
structure FiniteDecimal where
  negative : Bool
  coefficient : Nat
  exponent : Int

namespace FiniteDecimal

variable {x y : FiniteDecimal}

def value (x : FiniteDecimal) : Value :=
  .leaf (.decimal (.finite x.negative x.coefficient x.exponent))

def worth (x : FiniteDecimal) : ℚ := withSign x.negative (x.coefficient * 10 ^ x.exponent)

theorem plainEquals_iff_worth : x.value.plainEquals y.value = .equal ↔ x.worth = y.worth := by
  have hpower : ∀ z : FiniteDecimal,
      withSign z.negative (z.coefficient * 2 ^ z.exponent * 5 ^ z.exponent) = z.worth := by
    intro z
    rw [worth, mul_assoc, ← mul_zpow]
    norm_num
  rw [← hpower x, ← hpower y, ← Exact.ofScaled_eq_iff]
  simp only [value, Value.plainEquals, Leaf.plainEquals_eq_equal, Leaf.isUndefined,
    Leaf.undefinedIdent?, Leaf.key, Decimal.quantity, Leaf.numberKey, Option.isSome_none,
    Leaf.Key.number.injEq, true_and]

/-- The literal has these digits in front of the point and behind it. -/
structure Spells (x : FiniteDecimal) (whole places : List Char) : Prop where
  literal_eq : x.value.literal = (if x.negative then ['-'] else []) ++
    (whole ++ ((if x.exponent < 0 then '.' :: places else []) ++ ['d', 'e', 'c']))
  whole_ne_nil : whole ≠ []
  isDigit : ∀ c ∈ whole ++ places, c.isDigit = true
  length_places : places.length = (-x.exponent).toNat

theorem exists_spells (x : FiniteDecimal) : ∃ whole places, x.Spells whole places ∧
    (Fraction.mk x.negative whole places).worth = x.worth := by
  obtain ⟨whole, places, hfixed, hne, hd, hlen, hworth⟩ :=
    Decimal.fixedPoint_shape x.coefficient x.exponent
  refine ⟨whole, places, ⟨?_, hne, hd, hlen⟩, ?_⟩
  · rw [← List.append_assoc whole, ← hfixed]
    rfl
  · rw [Fraction.worth_eq, worth, hworth, zpow_add₀ (by norm_num), zpow_natCast, ← mul_assoc,
      mul_div_cancel_right₀ _ (pow_ne_zero _ (by norm_num))]

theorem Spells.read?_literal {whole places : List Char} (h : x.Spells whole places) :
    Fraction.read? x.value.literal = some ⟨x.negative, whole, places⟩ := by
  have hpoint : x.exponent < 0 ↔ places ≠ [] := by
    rw [← List.length_pos_iff, h.length_places]
    omega
  have hhead : (whole ++ ((if x.exponent < 0 then '.' :: places else []) ++
      Literal.decimalSuffix)).head? ≠ some '-' := by
    obtain ⟨c, digits, rfl⟩ := List.exists_cons_of_ne_nil h.whole_ne_nil
    intro hc
    have hdigit : c.isDigit = true := h.isDigit c (by simp)
    rw [Option.some.inj hc] at hdigit
    cases hdigit
  exact h.literal_eq ▸ (Fraction.read?_signText hhead).trans
    (Fraction.unsigned?_fraction h.whole_ne_nil h.isDigit hpoint)

/-- The literal of a finite decimal is a minus if it is negative, at least one digit, a point with
as many digits as the exponent is negative, if it is, and the mark of decimals; there is no
exponent. Read as a decimal fraction it is worth what the decimal is, and has its sign. So two
decimals with one literal are equal, and alike in sign and in places. -/
theorem literal_exact_fraction :
    (∀ x : FiniteDecimal, ∃ whole places : List Char,
      x.value.literal = (if x.negative then ['-'] else []) ++
          (whole ++ ((if x.exponent < 0 then '.' :: places else []) ++ ['d', 'e', 'c'])) ∧
        whole ≠ [] ∧ (∀ c ∈ whole ++ places, c.isDigit = true) ∧
        places.length = (-x.exponent).toNat ∧
        Fraction.read? x.value.literal = some ⟨x.negative, whole, places⟩ ∧
        (Fraction.mk x.negative whole places).worth = x.worth) ∧
      ∀ x y : FiniteDecimal, x.value.literal = y.value.literal →
        x.worth = y.worth ∧ x.value.plainEquals y.value = .equal ∧ x.negative = y.negative ∧
          (-x.exponent).toNat = (-y.exponent).toNat := by
  constructor
  · intro x
    obtain ⟨whole, places, h, hworth⟩ := x.exists_spells
    exact ⟨whole, places, h.literal_eq, h.whole_ne_nil, h.isDigit, h.length_places,
      h.read?_literal, hworth⟩
  · intro x y hliteral
    obtain ⟨whole, places, hx, hxworth⟩ := x.exists_spells
    obtain ⟨whole', places', hy, hyworth⟩ := y.exists_spells
    have hfraction : Fraction.mk x.negative whole places = ⟨y.negative, whole', places'⟩ :=
      Option.some.inj (by rw [← hx.read?_literal, hliteral, hy.read?_literal])
    have hworth : x.worth = y.worth := by rw [← hxworth, hfraction, hyworth]
    refine ⟨hworth, plainEquals_iff_worth.mpr hworth, congrArg Fraction.negative hfraction, ?_⟩
    rw [← hx.length_places, ← hy.length_places]
    exact congrArg (fun f => f.places.length) hfraction

theorem literal_exact_fraction_powers :
    (FiniteDecimal.mk true 10 2).value.literal = (FiniteDecimal.mk true 1 3).value.literal ∧
      (FiniteDecimal.mk true 10 2).value.plainEquals (FiniteDecimal.mk true 1 3).value =
        .equal := by
  have hliteral : (FiniteDecimal.mk true 10 2).value.literal =
      (FiniteDecimal.mk true 1 3).value.literal := by decide +kernel
  exact ⟨hliteral, (literal_exact_fraction.2 _ _ hliteral).2.1⟩

example : (FiniteDecimal.mk true 0 (-2)).value.literal = "-0.00dec".toList := by decide +kernel

end FiniteDecimal

end RecordLiteral
