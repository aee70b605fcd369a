import RecordLiteral.Proofs.Address
import RecordLiteral.Proofs.Form
import RecordLiteral.Proofs.Tokens

/-! # Which scalar ids are written alike

A text, a whole number and a unique identifier share one space of written ids. A text that
reads as a numeral never stands bare, so it is kept apart from the numbers within 64 bits;
numbers beyond are delimited as such a text is, and these are the only two ids that are
written alike.
-/
namespace RecordLiteral

namespace Identifier

open Numeral

variable {s : List Char}

theorem natural_leading {n : Nat} (h : n ≠ 0) : ∃ c digits, natural n = c :: digits ∧
    isLeadingDigit c = true ∧ digits.all Char.isDigit = true := by
  obtain ⟨c, digits, hn, hc⟩ := natural_head_ne_zero h
  have hd : ∀ d ∈ c :: digits, d.isDigit = true := fun d hd =>
    isDigit_of_mem_natural (n := n) (by rw [hn]; exact hd)
  refine ⟨c, digits, hn, by simp [isLeadingDigit, hd c (by simp), hc], ?_⟩
  exact List.all_eq_true.mpr fun d h => hd d (List.mem_cons_of_mem c h)

theorem isIntegerNumeral_signed (n : Int) : isIntegerNumeral (signed n) = true := by
  cases n with
  | ofNat n =>
    by_cases h : n = 0
    · subst h
      rfl
    · obtain ⟨c, digits, hn, hc, hd⟩ := natural_leading h
      have hminus : c ≠ '-' := by
        rintro rfl
        cases hc
      have hs : signed (.ofNat n) = c :: digits := hn
      rw [hs, isIntegerNumeral.eq_def]
      split <;> simp_all
  | negSucc n =>
    obtain ⟨c, digits, hn, hc, hd⟩ := natural_leading (Nat.succ_ne_zero n)
    have hs : signed (.negSucc n) = '-' :: c :: digits := congrArg ('-' :: ·) hn
    rw [hs, isIntegerNumeral, hc, hd, Bool.and_self]

theorem mem_signed {n : Int} {c : Char} (h : c ∈ signed n) : c = '-' ∨ c.isDigit = true :=
  mem_integerNumeral (isIntegerNumeral_signed n) h

/-- Every numeral of an integer could be taken for one. -/
theorem isNumberLike_signed (n : Int) : isNumberLike (signed n) = true := by
  have hs : separator ∉ signed n := fun h => absurd (mem_signed h) (by decide)
  rw [isNumberLike, List.erase_of_not_mem hs, isIntegerNumeral_signed]

theorem write_signed (n : Int) : write (signed n) = delimit (signed n) :=
  if_pos (isNumberLike_signed n)

theorem signed_ne_delimit (n : Int) (body : List Char) : signed n ≠ delimit body := by
  intro h
  have hm : openDelimiter ∈ signed n := by simp [h, delimit]
  exact absurd (mem_signed hm) (by decide)

/-- No text is written as the bare numeral of an integer. -/
theorem write_ne_signed (s : List Char) (n : Int) : write s ≠ signed n := by
  intro h
  by_cases hb : StandsBare s
  · rw [write_of_standsBare hb] at h
    have := hb.1
    rw [h, isNumberLike_signed] at this
    cases this
  · rw [write_of_not_standsBare hb] at h
    exact signed_ne_delimit n (mark s) h.symm

theorem write_eq_delimit_signed {n : Int} : write s = delimit (signed n) ↔ s = signed n := by
  rw [← write_signed]
  exact ⟨write_injective, congrArg write⟩

end Identifier

namespace Literal

open Identifier Numeral

theorem integerPart_of_le {n : Int} (h : n ≤ maxInteger) : integerPart n = signed n := by
  simp [integerPart, bounded, h]

theorem integerPart_of_lt {n : Int} (h : maxInteger < n) : integerPart n = delimit (signed n) := by
  simp [integerPart, bounded, Int.not_le.mpr h]

theorem integerPart_cases (n : Int) : (n ≤ maxInteger ∧ integerPart n = signed n) ∨
    (maxInteger < n ∧ integerPart n = delimit (signed n)) := by
  by_cases h : n ≤ maxInteger
  · exact Or.inl ⟨h, integerPart_of_le h⟩
  · exact Or.inr ⟨Int.not_le.mp h, integerPart_of_lt (Int.not_le.mp h)⟩

theorem integerPart_injective {m n : Int} (h : integerPart m = integerPart n) : m = n := by
  rcases integerPart_cases m with ⟨-, hm⟩ | ⟨-, hm⟩ <;>
    rcases integerPart_cases n with ⟨-, hn⟩ | ⟨-, hn⟩ <;> rw [hm, hn] at h
  · exact signed_injective h
  · exact absurd h (signed_ne_delimit m _)
  · exact absurd h.symm (signed_ne_delimit n _)
  · exact signed_injective (List.append_cancel_right (List.cons.inj h).2)

/-- A text is written as an integer is just when the integer is delimited and the text is its
numeral. -/
theorem write_eq_integerPart_iff {s : List Char} {n : Int} :
    write s = integerPart n ↔ maxInteger < n ∧ s = signed n := by
  rcases integerPart_cases n with ⟨hle, hn⟩ | ⟨hlt, hn⟩ <;> rw [hn]
  · exact iff_of_false (write_ne_signed s n) fun h => Int.not_lt.mpr hle h.1
  · rw [write_eq_delimit_signed]
    exact ⟨fun h => ⟨hlt, h⟩, And.right⟩

theorem uuidPart_injective {u v : Uuid} (h : uuidPart u = uuidPart v) : u = v :=
  Uuid.text_injective (List.append_cancel_right (List.cons.inj (List.cons.inj h).2).2)

theorem uuidPart_ne_delimit (u : Uuid) (body : List Char) : uuidPart u ≠ delimit body := fun h =>
  absurd (List.cons.inj h).1 (by decide)

theorem write_ne_uuidPart (s : List Char) (u : Uuid) : write s ≠ uuidPart u := by
  intro h
  by_cases hb : StandsBare s
  · rw [write_of_standsBare hb] at h
    exact hb.notMem (c := '"') (by decide) (by simp [h, uuidPart])
  · rw [write_of_not_standsBare hb] at h
    exact uuidPart_ne_delimit u (mark s) h.symm

theorem integerPart_ne_uuidPart (n : Int) (u : Uuid) : integerPart n ≠ uuidPart u := by
  intro h
  rcases integerPart_cases n with ⟨-, hn⟩ | ⟨-, hn⟩ <;> rw [hn] at h
  · have hm : uuidMark ∈ signed n := by simp [h, uuidPart]
    exact absurd (mem_signed hm) (by decide)
  · exact uuidPart_ne_delimit u _ h.symm

end Literal

/-- The ids that are no containers. -/
inductive ScalarId
  | text (s : String)
  | int (n : Int)
  | uuid (u : Uuid)

namespace ScalarId

open Literal

variable {x y : ScalarId}

def value : ScalarId → Value
  | .text s => .leaf (.text s)
  | .int n => .leaf (.int n)
  | .uuid u => .leaf (.uuid u)

/-- The number is beyond 64 bits, and the text is its numeral. -/
def IsLargeNumeral (x y : ScalarId) : Prop :=
  ∃ n : Int, maxInteger < n ∧ x = .text (String.ofList (Numeral.signed n)) ∧ y = .int n

theorem plainEquals_value : x.value.plainEquals y.value = .equal ↔ x = y := by
  cases x <;> cases y <;>
    simp only [value, Value.plainEquals, Leaf.plainEquals_eq_equal, Leaf.isUndefined,
      Leaf.undefinedIdent?, Leaf.key, Leaf.Key.text.injEq, Leaf.Key.number.injEq,
      Leaf.Key.uuid.injEq, Option.isSome_none, reduceCtorEq, true_and, and_false, text.injEq,
      int.injEq, uuid.injEq]
  exact ⟨Exact.ofInt_injective, congrArg Exact.ofInt⟩

theorem idPart_text_eq_int {s : String} {n : Int} :
    (text s).value.idPart = (int n).value.idPart ↔ IsLargeNumeral (text s) (int n) := by
  have hs : s = String.ofList (Numeral.signed n) ↔ s.toList = Numeral.signed n := by
    rw [← String.toList_inj, String.toList_ofList]
  simp only [IsLargeNumeral, text.injEq, int.injEq, existsAndEq, and_true, hs]
  exact write_eq_integerPart_iff

theorem idPart_injective_of_not_large (hxy : ¬ IsLargeNumeral x y) (hyx : ¬ IsLargeNumeral y x)
    (h : x.value.idPart = y.value.idPart) : x = y := by
  cases x with
  | text s =>
    cases y with
    | text t => rw [String.toList_inj.mp (Identifier.write_injective h)]
    | int n => exact absurd (idPart_text_eq_int.mp h) hxy
    | uuid u => exact absurd h (write_ne_uuidPart s.toList u)
  | int m =>
    cases y with
    | text t => exact absurd (idPart_text_eq_int.mp h.symm) hyx
    | int n => rw [integerPart_injective h]
    | uuid u => exact absurd h (integerPart_ne_uuidPart m u)
  | uuid u =>
    cases y with
    | text t => exact absurd h.symm (write_ne_uuidPart t.toList u)
    | int n => exact absurd h.symm (integerPart_ne_uuidPart n u)
    | uuid v => rw [uuidPart_injective h]

theorem IsLargeNumeral.idPart_eq (h : IsLargeNumeral x y) : x.value.idPart = y.value.idPart := by
  obtain ⟨n, hn, rfl, rfl⟩ := h
  exact idPart_text_eq_int.mpr ⟨n, hn, rfl, rfl⟩

/-- Two scalar ids are written alike exactly when they are equal, or one is a number beyond 64
bits and the other its numeral. So a text is never written as a smaller number or a unique
identifier is. -/
theorem idPart_eq_iff_equal_or_large :
    (∀ x y : ScalarId, x.value.idPart = y.value.idPart ↔
      x.value.plainEquals y.value = .equal ∨ IsLargeNumeral x y ∨ IsLargeNumeral y x) ∧
    ∀ s, (∀ n : Int, n ≤ maxInteger → (text s).value.idPart ≠ (int n).value.idPart) ∧
      ∀ u, (text s).value.idPart ≠ (uuid u).value.idPart := by
  refine ⟨fun x y => ?_, fun s => ⟨fun n hn h => ?_, fun u => write_ne_uuidPart s.toList u⟩⟩
  · rw [plainEquals_value]
    constructor
    · intro h
      by_cases hxy : IsLargeNumeral x y
      · exact Or.inr (Or.inl hxy)
      · by_cases hyx : IsLargeNumeral y x
        · exact Or.inr (Or.inr hyx)
        · exact Or.inl (idPart_injective_of_not_large hxy hyx h)
    · rintro (rfl | h | h)
      · rfl
      · exact h.idPart_eq
      · exact h.idPart_eq.symm
  · exact Int.not_lt.mpr hn (write_eq_integerPart_iff.mp h).1

example : (text "9223372036854775808").value.idPart = (int 9223372036854775808).value.idPart := by
  decide +kernel
example : (text "9223372036854775807").value.idPart ≠ (int 9223372036854775807).value.idPart := by
  decide +kernel

end ScalarId
end RecordLiteral
