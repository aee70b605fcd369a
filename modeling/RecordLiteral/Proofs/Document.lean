import RecordLiteral.Number.Decimal
import RecordLiteral.Proofs.Quotation

/-! # Documents

What JSON text stands for, and the reader of it. Numbers are whole when they have neither a
point nor an exponent. A key that comes twice keeps its place and gets the later item. Every
reader leaves less than it was given, and documents are read by recursion on what is left.
-/
namespace RecordLiteral

inductive Json
  | null
  | bool (b : Bool)
  | integer (n : Int)
  | decimal (x : Decimal)
  | string (s : List Char)
  | array (items : List Json)
  | object (entries : List (List Char × Json))

namespace Json

/-- What is left when something has been read from the beginning of a text. -/
abbrev Rest (text : List Char) := {rest : List Char // rest.length < text.length}

def Rest.within {text : List Char} (rest : Rest text) (last : Rest rest.1) : Rest text :=
  ⟨last.1, Nat.lt_trans last.2 rest.2⟩

section Progress
variable {α : Type} {text rest : List Char}

/-- The same reader, with the proof that it leaves less. -/
def progressing (read? : List Char → Option (α × List Char))
    (h : ∀ {text p}, read? text = some p → p.2.length < text.length) (text : List Char) :
    Option (α × Rest text) :=
  match hr : read? text with
  | some p => some (p.1, ⟨p.2, h hr⟩)
  | none => none

theorem progressing_eq {read? : List Char → Option (α × List Char)}
    {h : ∀ {text p}, read? text = some p → p.2.length < text.length} {a : α}
    (hr : read? text = some (a, rest)) : progressing read? h text = some (a, ⟨rest, h hr⟩) := by
  unfold progressing
  split
  · rename_i p hp
    obtain rfl : p = (a, rest) := Option.some.inj (hp.symm.trans hr)
    rfl
  · rename_i hp
    cases hp.symm.trans hr

end Progress

def isBlank (c : Char) : Bool := c == ' ' || c == '\t' || c == '\n' || c == '\r'

def skip (text : List Char) : List Char := text.dropWhile isBlank

/-- A character with the blanks around it. -/
def symbol? (text : List Char) : Option (Char × List Char) :=
  match skip text with
  | c :: rest => some (c, skip rest)
  | [] => none

/-- The digits in front of a point: a zero, or digits that do not begin with one. -/
def whole? : List Char → Option (List Char × List Char)
  | '0' :: rest => some (['0'], rest)
  | c :: rest =>
    if c.isDigit then some (c :: rest.takeWhile Char.isDigit, rest.dropWhile Char.isDigit) else none
  | [] => none

/-- The digits behind a point, if there are any. -/
def places : List Char → List Char × List Char
  | '.' :: c :: rest =>
    if c.isDigit then (c :: rest.takeWhile Char.isDigit, rest.dropWhile Char.isDigit)
    else ([], '.' :: c :: rest)
  | text => ([], text)

/-- The power of ten that a number is multiplied with, if there is one. -/
def power? : List Char → Option Int × List Char
  | mark :: rest =>
    let (negative, digits) := Numeral.splitSign rest
    if (mark = 'e' ∨ mark = 'E') ∧ digits.head?.any Char.isDigit = true then
      let n : Int := Nat.ofDigitChars 10 (digits.takeWhile Char.isDigit) 0
      (some (if negative then -n else n), digits.dropWhile Char.isDigit)
    else (none, mark :: rest)
  | [] => (none, [])

def unsigned? (negative : Bool) (text : List Char) : Option (Json × List Char) :=
  (whole? text).map fun (whole, rest) =>
    let (fraction, rest) := places rest
    let (exponent, rest) := power? rest
    let coefficient := Nat.ofDigitChars 10 (whole ++ fraction) 0
    if fraction.isEmpty ∧ exponent.isNone then
      (.integer (if negative then -coefficient else coefficient), rest)
    else (.decimal (.finite negative coefficient (exponent.getD 0 - fraction.length)), rest)

def number? : List Char → Option (Json × List Char)
  | '-' :: rest => unsigned? true rest
  | text => unsigned? false text

/-- A document without parts. -/
def scalar? : List Char → Option (Json × List Char)
  | 'n' :: 'u' :: 'l' :: 'l' :: rest => some (.null, rest)
  | 't' :: 'r' :: 'u' :: 'e' :: rest => some (.bool true, rest)
  | 'f' :: 'a' :: 'l' :: 's' :: 'e' :: rest => some (.bool false, rest)
  | '"' :: rest => (Quoted.read? ('"' :: rest)).map fun p => (.string p.1, p.2)
  | text => number? text

section Progress
variable {text : List Char} {negative : Bool}

theorem skip_length_le (text : List Char) : (skip text).length ≤ text.length :=
  (List.dropWhile_suffix isBlank).length_le

theorem symbol?_length_lt {p : Char × List Char} (h : symbol? text = some p) :
    p.2.length < text.length := by
  unfold symbol? at h
  split at h
  · rename_i c rest hs
    cases h
    have hle := skip_length_le text
    rw [hs, List.length_cons] at hle
    exact Nat.lt_of_le_of_lt (skip_length_le rest) hle
  · cases h

theorem digits_length_le (text : List Char) :
    (text.dropWhile Char.isDigit).length ≤ text.length :=
  (List.dropWhile_suffix Char.isDigit).length_le

theorem whole?_length_lt {p : List Char × List Char} (h : whole? text = some p) :
    p.2.length < text.length := by
  unfold whole? at h
  split at h
  · cases h
    simp
  · rename_i c rest _
    split at h
    · cases h
      exact Nat.lt_succ_of_le (digits_length_le rest)
    · cases h
  · cases h

theorem places_length_le (text : List Char) : (places text).2.length ≤ text.length := by
  unfold places
  split
  · rename_i c rest
    have := digits_length_le rest
    split
    · simp only [List.length_cons]
      omega
    · exact Nat.le_refl _
  · exact Nat.le_refl _

theorem splitSign_length_le (text : List Char) : (Numeral.splitSign text).2.length ≤ text.length := by
  unfold Numeral.splitSign
  split <;> simp

theorem power?_length_le (text : List Char) : (power? text).2.length ≤ text.length := by
  unfold power?
  split
  · rename_i mark rest
    have hsign := splitSign_length_le rest
    have hdigits := digits_length_le (Numeral.splitSign rest).2
    simp only
    split
    · simp only [List.length_cons]
      omega
    · exact Nat.le_refl _
  · exact Nat.le_refl _

theorem unsigned?_length_lt {p : Json × List Char} (h : unsigned? negative text = some p) :
    p.2.length < text.length := by
  obtain ⟨q, hq, rfl⟩ := Option.map_eq_some_iff.mp h
  have hwhole := whole?_length_lt hq
  have hplaces := places_length_le q.2
  have hpower := power?_length_le (places q.2).2
  simp only
  split <;> simp only <;> omega

theorem number?_length_lt {p : Json × List Char} (h : number? text = some p) :
    p.2.length < text.length := by
  unfold number? at h
  split at h
  · have := unsigned?_length_lt h
    simp only [List.length_cons]
    omega
  · exact unsigned?_length_lt h

theorem scalar?_length_lt {p : Json × List Char} (h : scalar? text = some p) :
    p.2.length < text.length := by
  unfold scalar? at h
  split at h
  · cases h
    simp only [List.length_cons]
    omega
  · cases h
    simp only [List.length_cons]
    omega
  · cases h
    simp only [List.length_cons]
    omega
  · obtain ⟨q, hq, rfl⟩ := Option.map_eq_some_iff.mp h
    exact Quoted.read?_length_lt hq
  · exact number?_length_lt h

end Progress

def next? (text : List Char) : Option (Char × Rest text) := progressing symbol? symbol?_length_lt text

/-- A reader of texts that are shorter than a bound. -/
abbrev Reader (bound : Nat) (α : Type) :=
  (text : List Char) → text.length < bound → Option (α × Rest text)

section Readers
variable {α : Type} {bound : Nat}

/-- At least one item, up to the closing bracket. -/
def itemsFrom? (closing : Char) (item? : Reader bound α) : Reader bound (List α)
  | text, h =>
    match item? text h with
    | none => none
    | some (item, rest) =>
      match next? rest.1 with
      | none => none
      | some (c, more) =>
        if c = closing then some ([item], rest.within more)
        else if c = ',' then
          (itemsFrom? closing item? more.1 (Nat.lt_trans (rest.within more).2 h)).map fun p =>
            (item :: p.1, (rest.within more).within p.2)
        else none
termination_by text => text.length
decreasing_by exact (rest.within more).2

/-- Items behind an opening bracket, up to the closing one. -/
def items? (closing : Char) (item? : Reader bound α) : Reader bound (List α) := fun text h =>
  match next? text with
  | none => none
  | some (c, rest) => if c = closing then some ([], rest) else itemsFrom? closing item? text h

def member? (item? : Reader bound Json) : Reader bound (List Char × Json) := fun text h =>
  match progressing Quoted.read? Quoted.read?_length_lt text with
  | none => none
  | some (key, rest) =>
    match next? rest.1 with
    | none => none
    | some (c, more) =>
      if c = ':' then
        (item? more.1 (Nat.lt_trans (rest.within more).2 h)).map fun p =>
          ((key, p.1), (rest.within more).within p.2)
      else none

end Readers

/-- Puts an entry behind the others, or in the place of one with the same key. -/
def put (entries : List (List Char × Json)) (entry : List Char × Json) : List (List Char × Json) :=
  if entries.any (·.1 = entry.1) then entries.map fun e => if e.1 = entry.1 then entry else e
  else entries ++ [entry]

/-- The document at the beginning of a text, and what is behind it. -/
def value? (text : List Char) : Option (Json × Rest text) :=
  match next? text with
  | some ('[', rest) =>
    (items? ']' (fun part (_ : part.length < text.length) => value? part) rest.1 rest.2).map fun p =>
      (.array p.1, rest.within p.2)
  | some ('\x7b', rest) =>
    (items? '\x7d' (member? fun part (_ : part.length < text.length) => value? part) rest.1 rest.2).map
      fun p => (.object (p.1.foldl put []), rest.within p.2)
  | _ => progressing scalar? scalar?_length_lt text
termination_by text.length

/-- Reads a text that is one document, with blanks around it. -/
def read? (text : List Char) : Option Json :=
  (value? (skip text)).bind fun p => if (skip p.2.1).isEmpty then some p.1 else none

example : read? " [1, \"\\ud83d\\ude00\"]".toList = some (.array [.integer 1, .string "😀".toList]) := by
  cbv
example : read? "[1,]".toList = none := by cbv
example : read? "\"\\ud83d\"".toList = none := by cbv

end Json
end RecordLiteral
