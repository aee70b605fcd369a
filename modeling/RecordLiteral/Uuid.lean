import RecordLiteral.Text.Numeral

/-! # Unique identifiers

A unique identifier is a number of 128 bits. Its text has 32 lowercase hexadecimal
digits in five groups.
-/
namespace RecordLiteral

structure Uuid where
  value : BitVec 128
  deriving DecidableEq

namespace Uuid

def groups : List Nat → List Char → List (List Char)
  | [], _ => []
  | size :: sizes, digits => digits.take size :: groups sizes (digits.drop size)

def text (u : Uuid) : List Char :=
  ['-'].intercalate (groups [8, 4, 4, 4, 12] (Numeral.hexadecimal 32 u.value.toNat))

def withoutWord (word : List Char) : List Char → List Char
  | [] => []
  | c :: rest =>
    if word.isPrefixOf (c :: rest) then withoutWord word ((c :: rest).drop (max word.length 1))
    else c :: withoutWord word rest
termination_by text => text.length
decreasing_by all_goals grind

def isBrace (c : Char) : Bool := c == '\x7b' || c == '\x7d'

/-- The text without hyphens, outer braces and the words of the resource name notation,
which do not matter. -/
def bareText (text : List Char) : List Char :=
  let named := withoutWord "uuid:".toList (withoutWord "urn:".toList text)
  (Digit.strip isBrace named).filter (· != '-')

/-- The identifier with a certain number, taken modulo 2 ^ 128. -/
def ofNat (n : Nat) : Uuid := ⟨BitVec.ofNat 128 n⟩

end Uuid
end RecordLiteral
