import RecordLiteral.Proofs.Tokens

/-! # Reading quoted text

A quoted text stands for UTF-16 units: a character stands for its own, and an escape by four
hexadecimal digits for one, so that two such escapes may make one character. A text written
in either alphabet is read back, whatever stands behind it.
-/
namespace RecordLiteral

namespace Quoted

/-- The character that is escaped by a letter; a slash may be escaped too. -/
def unescape? (l : Char) : Option Char :=
  if l ∈ ['"', '\\', '/', 'b', 'f', 'n', 'r', 't'] then some (ofLetter l) else none

/-- The units of a text up to the closing quote, and what is behind it. -/
def readUnits? : List Char → Option (List Nat × List Char)
  | [] => none
  | '"' :: rest => some ([], rest)
  | '\\' :: 'u' :: a :: b :: c :: d :: rest =>
    (Numeral.readDigits? 16 [a, b, c, d]).bind fun unit =>
      (readUnits? rest).map fun p => (unit :: p.1, p.2)
  | '\\' :: l :: rest =>
    (unescape? l).bind fun c => (readUnits? rest).map fun p => (units c ++ p.1, p.2)
  | c :: rest =>
    if c ≠ '\\' ∧ isPlain .unicode c = true then
      (readUnits? rest).map fun p => (units c ++ p.1, p.2)
    else none

/-- Units from `0xd800` to `0xdfff` make a character in pairs, a high one and a low one. -/
def decode? : List Nat → Option (List Char)
  | [] => some []
  | [unit] => if unit.isValidChar then some [Char.ofNat unit] else none
  | unit :: next :: rest =>
    if unit.isValidChar then (decode? (next :: rest)).map (Char.ofNat unit :: ·)
    else if unit < 0xdc00 ∧ 0xdc00 ≤ next ∧ next < 0xe000 then
      (decode? rest).map (Char.ofNat (0x10000 + (unit - 0xd800) * 0x400 + (next - 0xdc00)) :: ·)
    else none

/-- A text between quotes, and what is behind it. -/
def read? : List Char → Option (List Char × List Char)
  | '"' :: rest => (readUnits? rest).bind fun p => (decode? p.1).map fun s => (s, p.2)
  | _ => none

theorem readUnits?_length_lt {text : List Char} {p : List Nat × List Char}
    (h : readUnits? text = some p) : p.2.length < text.length := by
  induction text using readUnits?.induct generalizing p with
  | case1 => cases h
  | case2 rest =>
    cases h
    simp
  | case3 a b c d rest ih =>
    rw [readUnits?] at h
    obtain ⟨unit, -, h⟩ := Option.bind_eq_some_iff.mp h
    obtain ⟨q, hq, rfl⟩ := Option.map_eq_some_iff.mp h
    have := ih hq
    simp only [List.length_cons]
    omega
  | case4 l rest hl ih =>
    rw [readUnits?] at h
    · obtain ⟨c, -, h⟩ := Option.bind_eq_some_iff.mp h
      obtain ⟨q, hq, rfl⟩ := Option.map_eq_some_iff.mp h
      have := ih hq
      simp only [List.length_cons]
      omega
    · exact hl
  | case5 c rest hq hu hl hc ih =>
    rw [readUnits?, if_pos hc] at h
    · obtain ⟨q, hq, rfl⟩ := Option.map_eq_some_iff.mp h
      have := ih hq
      simp only [List.length_cons]
      omega
    · exact hq
    · exact hu
    · exact hl
  | case6 c rest hq hu hl hc =>
    rw [readUnits?, if_neg hc] at h
    · cases h
    · exact hq
    · exact hu
    · exact hl

theorem read?_length_lt {text : List Char} {p : List Char × List Char} (h : read? text = some p) :
    p.2.length < text.length := by
  unfold read? at h
  split at h
  · obtain ⟨q, hq, h⟩ := Option.bind_eq_some_iff.mp h
    obtain ⟨s, -, rfl⟩ := Option.map_eq_some_iff.mp h
    have := readUnits?_length_lt hq
    simp only [List.length_cons]
    omega
  · cases h

theorem readUnits?_unitEscape {unit : Nat} (h : unit < 0x10000) (rest : List Char) :
    readUnits? (unitEscape unit ++ rest) = (readUnits? rest).map fun p => (unit :: p.1, p.2) := by
  have hlen : (Numeral.hexadecimal 4 unit).length = 4 :=
    Numeral.length_hexadecimal (by decide) h
  have hread := Numeral.readDigits?_hexadecimal 4 unit
  obtain ⟨a, b, c, d, hd⟩ : ∃ a b c d, Numeral.hexadecimal 4 unit = [a, b, c, d] := by
    generalize Numeral.hexadecimal 4 unit = digits at hlen
    match digits, hlen with
    | [a, b, c, d], _ => exact ⟨a, b, c, d, rfl⟩
  rw [hd] at hread
  simp only [unitEscape, hd, List.cons_append, List.nil_append]
  rw [readUnits?, hread, Option.bind_some]

theorem toNat_lt (c : Char) : c.toNat < 0x110000 := by
  have hvalid : c.toNat.isValidChar := c.valid
  unfold Nat.isValidChar at hvalid
  omega

theorem units_lt {c : Char} {unit : Nat} (h : unit ∈ units c) : unit < 0x10000 := by
  have hc := toNat_lt c
  unfold units at h
  split at h
  · have hunit := List.mem_singleton.mp h
    omega
  · simp only [List.mem_cons, List.not_mem_nil, or_false] at h
    rcases h with h | h <;> omega

theorem readUnits?_flatMap_unitEscape {us : List Nat} (h : ∀ unit ∈ us, unit < 0x10000)
    (rest : List Char) :
    readUnits? (us.flatMap unitEscape ++ rest) = (readUnits? rest).map fun p => (us ++ p.1, p.2) := by
  induction us with
  | nil => simp
  | cons unit us ih =>
    rw [List.flatMap_cons, List.append_assoc, readUnits?_unitEscape (h unit (by simp)),
      ih fun v hv => h v (List.mem_cons_of_mem unit hv), Option.map_map]
    rfl

theorem readUnits?_letter {c l : Char} (h : letter? c = some l) (rest : List Char) :
    readUnits? ('\\' :: l :: rest) = (readUnits? rest).map fun p => (units c ++ p.1, p.2) := by
  have hl : unescape? l = some c := by
    unfold letter? at h
    split at h <;> cases h <;> rfl
  rw [readUnits?, hl, Option.bind_some]
  intro _ _ _ _ _ hu _
  exact letter?_ne_u h hu

theorem isPlain_unicode {alphabet : Alphabet} {c : Char} (h : isPlain alphabet c = true) :
    isPlain .unicode c = true := by
  cases alphabet with
  | unicode => exact h
  | ascii =>
    simp only [isPlain, Bool.and_eq_true] at h
    exact h.1

/-- However a character is written, it is read as its units. -/
theorem readUnits?_writeChar (alphabet : Alphabet) (c : Char) (rest : List Char) :
    readUnits? (writeChar alphabet c ++ rest) =
      (readUnits? rest).map fun p => (units c ++ p.1, p.2) := by
  rcases writeChar_shape alphabet c with ⟨l, hl, h⟩ | ⟨hq, hb, hp, h⟩ | ⟨-, h⟩ <;> rw [h]
  · exact readUnits?_letter hl rest
  · rw [List.singleton_append, readUnits?, if_pos ⟨hb, isPlain_unicode hp⟩]
    · exact hq
    · exact fun _ _ _ _ _ hc _ => hb hc
    · exact fun _ _ hc _ => hb hc
  · exact readUnits?_flatMap_unitEscape (fun _ => units_lt) rest

theorem readUnits?_close (alphabet : Alphabet) (s rest : List Char) :
    readUnits? (s.flatMap (writeChar alphabet) ++ '"' :: rest) = some (s.flatMap units, rest) := by
  induction s with
  | nil => rfl
  | cons c s ih =>
    rw [List.flatMap_cons, List.append_assoc, readUnits?_writeChar, ih, Option.map_some,
      List.flatMap_cons]

theorem decode?_units_append (c : Char) (us : List Nat) :
    decode? (units c ++ us) = (decode? us).map (c :: ·) := by
  have hvalid : c.toNat.isValidChar := c.valid
  by_cases h : c.toNat < 0x10000
  · have hu : units c = [c.toNat] := if_pos h
    rw [hu]
    cases us with
    | nil => simp [decode?, hvalid]
    | cons unit us => simp [decode?, hvalid]
  · have hc := toNat_lt c
    have hu : units c = [0xd800 + (c.toNat - 0x10000) / 0x400, 0xdc00 + (c.toNat - 0x10000) % 0x400] :=
      if_neg h
    have hhigh : ¬ (0xd800 + (c.toNat - 0x10000) / 0x400).isValidChar := by
      unfold Nat.isValidChar
      omega
    have hpair : 0x10000 + (0xd800 + (c.toNat - 0x10000) / 0x400 - 0xd800) * 0x400 +
        (0xdc00 + (c.toNat - 0x10000) % 0x400 - 0xdc00) = c.toNat := by
      omega
    rw [hu, List.cons_append, List.singleton_append, decode?, if_neg hhigh, if_pos (by omega), hpair,
      Char.ofNat_toNat]

theorem decode?_flatMap_units (s : List Char) : decode? (s.flatMap units) = some s := by
  induction s with
  | nil => rfl
  | cons c s ih => rw [List.flatMap_cons, decode?_units_append, ih, Option.map_some]

/-- Text in quotes is read back in both alphabets, whatever is behind it. -/
theorem read?_write (alphabet : Alphabet) (s rest : List Char) :
    read? (write alphabet s ++ rest) = some (s, rest) := by
  rw [write, List.cons_append, List.append_assoc, List.singleton_append, read?, readUnits?_close,
    Option.bind_some, decode?_flatMap_units, Option.map_some]

end Quoted

end RecordLiteral
