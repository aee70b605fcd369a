import Mathlib.Computability.RegularExpressions
import RecordLiteral.Proofs.Collisions

/-! # Which texts could be taken for numbers

A text is like a number when what is left of it without its first separator is the numeral
of an integer. Numerals are known in three ways that come to the same: by a regular
expression, as what is written for some integer, and as the texts of which an integer can
be read that is written as they are.
-/
namespace RecordLiteral

namespace Numeral

/-- The integer at the beginning of a text, which may have a sign. What is behind its digits
does not count, but there has to be a digit. -/
def leadingInteger? (text : List Char) : Option Int :=
  let (negative, rest) := splitSign text
  let digits := rest.takeWhile Char.isDigit
  let size := Nat.ofDigitChars 10 digits 0
  if digits.isEmpty then none else some (if negative then -size else size)

theorem takeWhile_natural (n : Nat) : (natural n).takeWhile Char.isDigit = natural n := by
  simpa using takeWhile_append_stop (fun _ => isDigit_of_mem_natural (n := n)) noDigit_nil

theorem ofDigitChars_natural (n : Nat) : Nat.ofDigitChars 10 (natural n) 0 = n :=
  Nat.ofDigitChars_toDigits (by decide) (by decide)

theorem isEmpty_natural (n : Nat) : (natural n).isEmpty = false := by
  rw [List.isEmpty_eq_false_iff]
  exact Nat.toDigits_ne_nil

theorem splitSign_natural (n : Nat) : splitSign (natural n) = (false, natural n) := by
  unfold splitSign
  split
  · exact absurd ‹_› (natural_append_ne_minus n [] _ <| by simpa using ·)
  · rename_i rest h
    have hplus : ('+').isDigit = true := isDigit_of_mem_natural (by rw [h]; exact List.mem_cons_self)
    cases hplus
  · rfl

theorem leadingInteger?_signed (n : Int) : leadingInteger? (signed n) = some n := by
  cases n with
  | ofNat n =>
    simp only [leadingInteger?, signed, splitSign_natural, takeWhile_natural, isEmpty_natural,
      ofDigitChars_natural, Bool.false_eq_true, if_false]
    rfl
  | negSucc n =>
    simp only [leadingInteger?, signed, splitSign, takeWhile_natural, isEmpty_natural,
      ofDigitChars_natural, Bool.false_eq_true, if_false, if_true]
    rfl

theorem exists_digitChar {c : Char} (h : c.isDigit = true) : ∃ d < 10, c = d.digitChar := by
  have hrange : 48 ≤ c.toNat ∧ c.toNat ≤ 57 := by
    simpa [Char.isDigit, UInt32.le_iff_toNat_le] using h
  refine ⟨c.toNat - 48, by omega, Char.toNat_inj.mp ?_⟩
  rw [Nat.toNat_digitChar_of_lt_ten (by omega)]
  omega

theorem natural_digit {d : Nat} (h : d < 10) : natural d = [d.digitChar] :=
  Nat.toDigits_of_lt_base h

theorem natural_append_digit {n d : Nat} (hn : 0 < n) (hd : d < 10) :
    natural (10 * n + d) = natural n ++ [d.digitChar] := by
  rw [← natural_digit hd]
  exact (Nat.toDigits_append_toDigits (by decide) hn hd).symm

end Numeral

namespace Identifier

open Numeral

variable {s text : List Char}

/-- Digits of which the first is no zero are a numeral; one digit more is ten times the number. -/
theorem exists_natural {c : Char} {digits : List Char} (hc : isLeadingDigit c = true)
    (hd : ∀ d ∈ digits, d.isDigit = true) : ∃ n, 0 < n ∧ natural n = c :: digits := by
  induction digits using List.reverseRecOn with
  | nil =>
    simp only [isLeadingDigit, Bool.and_eq_true, bne_iff_ne] at hc
    obtain ⟨d, hlt, rfl⟩ := exists_digitChar hc.1
    refine ⟨d, Nat.pos_of_ne_zero ?_, natural_digit hlt⟩
    rintro rfl
    exact hc.2 rfl
  | append_singleton digits last ih =>
    obtain ⟨n, hn, hdigits⟩ := ih fun d h => hd d (List.mem_append_left _ h)
    obtain ⟨d, hlt, rfl⟩ := exists_digitChar (hd last (by simp))
    exact ⟨10 * n + d, by omega, by rw [natural_append_digit hn hlt, hdigits]; rfl⟩

theorem exists_signed (h : isIntegerNumeral text = true) : ∃ n : Int, text = signed n := by
  unfold isIntegerNumeral at h
  split at h
  · exact ⟨0, rfl⟩
  · simp only [Bool.and_eq_true, List.all_eq_true] at h
    obtain ⟨n, hn, hdigits⟩ := exists_natural h.1 h.2
    obtain ⟨m, rfl⟩ := Nat.exists_eq_succ_of_ne_zero hn.ne'
    exact ⟨.negSucc m, congrArg ('-' :: ·) hdigits.symm⟩
  · simp only [Bool.and_eq_true, List.all_eq_true] at h
    obtain ⟨n, -, hdigits⟩ := exists_natural h.1 h.2
    exact ⟨.ofNat n, hdigits.symm⟩
  · cases h

theorem isIntegerNumeral_iff_signed : isIntegerNumeral text = true ↔ ∃ n : Int, text = signed n := by
  refine ⟨exists_signed, ?_⟩
  rintro ⟨n, rfl⟩
  exact isIntegerNumeral_signed n

/-- An integer can be read from the beginning, and writing it gives back the whole text. -/
def PrintsBack (text : List Char) : Prop := (leadingInteger? text).map signed = some text

instance (text : List Char) : Decidable (PrintsBack text) :=
  inferInstanceAs (Decidable (_ = _))

theorem isIntegerNumeral_iff_printsBack : isIntegerNumeral text = true ↔ PrintsBack text := by
  rw [isIntegerNumeral_iff_signed, PrintsBack]
  constructor
  · rintro ⟨n, rfl⟩
    rw [leadingInteger?_signed, Option.map_some]
  · intro h
    obtain ⟨n, -, hn⟩ := Option.map_eq_some_iff.mp h
    exact ⟨n, hn.symm⟩

section Expression
open RegularExpression

/-- One of some characters. -/
def oneOf (cs : List Char) : RegularExpression Char := cs.foldr (fun c r => char c + r) 0

def leadingDigit : RegularExpression Char := oneOf ['1', '2', '3', '4', '5', '6', '7', '8', '9']
def digit : RegularExpression Char := char '0' + leadingDigit

/-- `0|-?[1-9][0-9]*` -/
def integerNumeral : RegularExpression Char :=
  char '0' + (1 + char '-') * (leadingDigit * star digit)

theorem mem_char {c : Char} : text ∈ (char c).matches' ↔ text = [c] := Iff.rfl

theorem mem_oneOf {cs : List Char} : text ∈ (oneOf cs).matches' ↔ ∃ c ∈ cs, text = [c] := by
  induction cs with
  | nil => exact iff_of_false (Language.notMem_zero text) (by simp)
  | cons c cs ih =>
    rw [oneOf, List.foldr_cons, matches'_add, Language.mem_add, mem_char, List.exists_mem_cons_iff]
    exact or_congr_right ih

theorem mem_leadingDigit : text ∈ leadingDigit.matches' ↔ ∃ c, isLeadingDigit c = true ∧ text = [c] := by
  have digits : ∀ d < 10, isLeadingDigit d.digitChar = true →
      d.digitChar ∈ ['1', '2', '3', '4', '5', '6', '7', '8', '9'] := by decide
  have leading : ∀ c ∈ ['1', '2', '3', '4', '5', '6', '7', '8', '9'], isLeadingDigit c = true := by
    simp [isLeadingDigit]
  rw [leadingDigit, mem_oneOf]
  constructor
  · rintro ⟨c, hc, h⟩
    exact ⟨c, leading c hc, h⟩
  · rintro ⟨c, hc, h⟩
    obtain ⟨d, hd, rfl⟩ := exists_digitChar (isDigit_of_isLeadingDigit hc)
    exact ⟨_, digits d hd hc, h⟩

theorem mem_digit : text ∈ digit.matches' ↔ ∃ c, c.isDigit = true ∧ text = [c] := by
  rw [digit, matches'_add, Language.mem_add, mem_char, mem_leadingDigit]
  constructor
  · rintro (h | ⟨c, hc, h⟩)
    · exact ⟨'0', rfl, h⟩
    · exact ⟨c, isDigit_of_isLeadingDigit hc, h⟩
  · rintro ⟨c, hc, rfl⟩
    by_cases h : c = '0'
    · exact Or.inl (by rw [h])
    · exact Or.inr ⟨c, by simp [isLeadingDigit, hc, h], rfl⟩

theorem mem_digits : text ∈ (star digit).matches' ↔ ∀ c ∈ text, c.isDigit = true := by
  rw [matches'_star, Language.mem_kstar]
  constructor
  · rintro ⟨words, rfl, hwords⟩ c hc
    obtain ⟨word, hword, hc⟩ := List.mem_flatten.mp hc
    obtain ⟨d, hd, rfl⟩ := mem_digit.mp (hwords word hword)
    rwa [List.mem_singleton.mp hc]
  · intro h
    refine ⟨text.map fun c => [c], (List.flatMap_singleton' text).symm, List.forall_mem_map.mpr fun c hc => ?_⟩
    exact mem_digit.mpr ⟨c, h c hc, rfl⟩

theorem mem_integerNumeral_iff : text ∈ integerNumeral.matches' ↔ text = ['0'] ∨
    ∃ sign, (sign = [] ∨ sign = ['-']) ∧ ∃ c digits, isLeadingDigit c = true ∧
      (∀ d ∈ digits, d.isDigit = true) ∧ text = sign ++ c :: digits := by
  simp only [integerNumeral, matches'_add, matches'_mul, Language.mem_add, Language.mem_mul,
    matches'_epsilon, Language.mem_one, mem_char, mem_leadingDigit, mem_digits]
  refine or_congr_right (exists_congr fun sign => and_congr_right fun _ => ?_)
  constructor
  · rintro ⟨-, ⟨-, ⟨c, hc, rfl⟩, digits, hd, rfl⟩, rfl⟩
    exact ⟨c, digits, hc, hd, rfl⟩
  · rintro ⟨c, digits, hc, hd, rfl⟩
    exact ⟨_, ⟨_, ⟨c, hc, rfl⟩, digits, hd, rfl⟩, rfl⟩

theorem isIntegerNumeral_iff_expression :
    isIntegerNumeral text = true ↔ text ∈ integerNumeral.matches' := by
  rw [mem_integerNumeral_iff]
  constructor
  · intro h
    unfold isIntegerNumeral at h
    split at h
    · exact Or.inl rfl
    · simp only [Bool.and_eq_true, List.all_eq_true] at h
      exact Or.inr ⟨['-'], Or.inr rfl, _, _, h.1, h.2, rfl⟩
    · simp only [Bool.and_eq_true, List.all_eq_true] at h
      exact Or.inr ⟨[], Or.inl rfl, _, _, h.1, h.2, rfl⟩
    · cases h
  · rintro (rfl | ⟨-, rfl | rfl, c, digits, hc, hd, rfl⟩)
    · rfl
    · have hminus : c ≠ '-' := by
        rintro rfl
        cases hc
      rw [List.nil_append, isIntegerNumeral.eq_def]
      split <;> simp_all
    · rw [List.singleton_append, isIntegerNumeral, hc, List.all_eq_true.mpr hd, Bool.and_self]

end Expression

/-- Taking out the first separator of a text leaves a text without any exactly where the text has
at most one, anywhere. -/
theorem erase_separator_eq_iff (ht : separator ∉ text) : s.erase separator = text ↔
    s = text ∨ ∃ u v, text = u ++ v ∧ s = u ++ separator :: v := by
  constructor
  · intro h
    by_cases hs : separator ∈ s
    · obtain ⟨u, v, -, rfl, herase⟩ := List.exists_erase_eq hs
      exact Or.inr ⟨u, v, h.symm.trans herase, rfl⟩
    · exact Or.inl (by rw [← h, List.erase_of_not_mem hs])
  · rintro (rfl | ⟨u, v, rfl, rfl⟩)
    · exact List.erase_of_not_mem ht
    · rw [List.erase_append_right _ fun hu => ht (List.mem_append_left v hu), List.erase_cons_head]

theorem separator_notMem_signed (n : Int) : separator ∉ signed n := fun h =>
  absurd (mem_signed h) (by decide)

/-- A text is like a number when, without its first separator, it matches the expression for
numerals; when the integer that is read from it is written as what is left of it; and when it
is the numeral of an integer, with or without one separator put in somewhere. -/
theorem isNumberLike_iff_printsBack_and_signed (s : List Char) :
    (isNumberLike s = true ↔ s.erase separator ∈ integerNumeral.matches') ∧
      (isNumberLike s = true ↔ PrintsBack (s.erase separator)) ∧
      (isNumberLike s = true ↔
        ∃ n : Int, s = signed n ∨ ∃ u v, signed n = u ++ v ∧ s = u ++ separator :: v) := by
  refine ⟨isIntegerNumeral_iff_expression, isIntegerNumeral_iff_printsBack, ?_⟩
  rw [isNumberLike, isIntegerNumeral_iff_signed]
  exact exists_congr fun n => erase_separator_eq_iff (separator_notMem_signed n)

example : isNumberLike "_-12".toList = true := by decide +kernel
example : isNumberLike "-0".toList = false := by decide +kernel
example : ¬ PrintsBack "+1".toList := by decide +kernel

end Identifier
end RecordLiteral
