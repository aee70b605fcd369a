import RecordLiteral.Text.Numeral

/-! # Quoted text

Text between double quotes. The quote, the backslash and control characters are
escaped, five of them by a letter and the others by four hexadecimal digits. With
the ASCII alphabet every character beyond the printable ASCII ones is escaped by
its UTF-16 units.
-/
namespace RecordLiteral.Quoted

inductive Alphabet
  | unicode
  | ascii
  deriving DecidableEq

def unitEscape (unit : Nat) : List Char := '\\' :: 'u' :: Numeral.hexadecimal 4 unit

/-- The UTF-16 units of a character: itself, or a pair of surrogates. -/
def units (c : Char) : List Nat :=
  if c.toNat < 0x10000 then [c.toNat]
  else [0xd800 + (c.toNat - 0x10000) / 0x400, 0xdc00 + (c.toNat - 0x10000) % 0x400]

def letter? : Char → Option Char
  | '"' => some '"'
  | '\\' => some '\\'
  | '\n' => some 'n'
  | '\r' => some 'r'
  | '\t' => some 't'
  | '\x0c' => some 'f'
  | '\x08' => some 'b'
  | _ => none

def isPlain : Alphabet → Char → Bool
  | .unicode, c => 0x20 ≤ c.toNat
  | .ascii, c => 0x20 ≤ c.toNat && c.toNat < 0x7f

def writeChar (alphabet : Alphabet) (c : Char) : List Char :=
  match letter? c with
  | some l => ['\\', l]
  | none => if isPlain alphabet c then [c] else (units c).flatMap unitEscape

def write (alphabet : Alphabet) (text : List Char) : List Char :=
  '"' :: (text.flatMap (writeChar alphabet) ++ ['"'])

end RecordLiteral.Quoted
