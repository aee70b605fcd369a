import RecordLiteral.Text.Digit

/-! # Numerals

Whole numbers as digits, the most significant first. A decimal numeral has no
leading zeros and no sign on zero, so it is the only one of its number; padded
numerals have at least a given number of digits.
-/
namespace RecordLiteral.Numeral

def natural (n : Nat) : List Char := Nat.toDigits 10 n

/-- Integers of any size have a numeral: the limit that an interpreter may set to the number of
its digits is left out. -/
def signed : Int → List Char
  | .ofNat n => natural n
  | .negSucc n => '-' :: natural (n + 1)

def padded (width n : Nat) : List Char := (natural n).leftpad width '0'

def hexadecimal (width n : Nat) : List Char := (Nat.toDigits 16 n).leftpad width '0'

def hexadecimalDigit? (c : Char) : Option Nat :=
  if '0' ≤ c ∧ c ≤ '9' then some (c.toNat - '0'.toNat)
  else if 'a' ≤ c ∧ c ≤ 'f' then some (c.toNat - 'a'.toNat + 10)
  else if 'A' ≤ c ∧ c ≤ 'F' then some (c.toNat - 'A'.toNat + 10)
  else none

def readNatural? (text : List Char) : Option Nat :=
  if text.all Char.isDigit then some (Nat.ofDigitChars 10 text 0) else none

/-- The number written by digits of a base up to sixteen, if there is nothing but digits. -/
def readDigits? (base : Nat) (text : List Char) : Option Nat :=
  text.foldlM (fun n c => ((hexadecimalDigit? c).filter (· < base)).map (base * n + ·)) 0

def isAsciiBlank (c : Char) : Bool := c == ' ' || (9 ≤ c.toNat && c.toNat ≤ 13)

/-- Whether every underscore stands between two digits. -/
def isGrouped : List Char → Bool
  | [] => false
  | '_' :: _ => false
  | [_] => true
  | _ :: '_' :: rest => isGrouped rest
  | _ :: rest => isGrouped rest

/-- The digits without the mark of base sixteen, behind which one underscore may stand. -/
def withoutBaseMark (base : Nat) (text : List Char) : List Char :=
  match text with
  | '0' :: mark :: rest =>
    if base = 16 ∧ (mark = 'x' ∨ mark = 'X') then
      match rest with
      | '_' :: digits => digits
      | digits => digits
    else text
  | text => text

def splitSign : List Char → Bool × List Char
  | '-' :: rest => (true, rest)
  | '+' :: rest => (false, rest)
  | rest => (false, rest)

def foldToAscii (c : Char) : Char :=
  if c.toNat < 128 then c else if Digit.isBlank c then ' ' else Digit.toAscii c

/-- Reads an integer of a base from the digits of any script, between blanks, with a
sign that may be missing, and with single underscores between digits. -/
def readInteger? (base : Nat) (text : List Char) : Option Int :=
  let (negative, digits) := splitSign (Digit.strip isAsciiBlank (text.map foldToAscii))
  let body := withoutBaseMark base digits
  if isGrouped body then
    (readDigits? base (body.filter (· != '_'))).map fun n => if negative then -n else n
  else none

theorem readNatural?_natural (n : Nat) : readNatural? (natural n) = some n := by
  have digits : (natural n).all Char.isDigit = true :=
    List.all_eq_true.mpr fun _ h => Nat.isDigit_of_mem_toDigits (by decide) (by decide) h
  simp only [readNatural?, digits, if_true]
  exact congrArg some (Nat.ofDigitChars_toDigits (by decide) (by decide))

theorem natural_injective {m n : Nat} (h : natural m = natural n) : m = n :=
  Option.some.inj (by rw [← readNatural?_natural m, h, readNatural?_natural n])

end RecordLiteral.Numeral
