import RecordLiteral.Text.Numeral
import RecordLiteral.Text.Printable

/-! # Debugging text

Text in single quotes, or in double quotes when it holds a single one and no double
one. The quote in use, the backslash and everything that is not printable is escaped.
Bytes are written alike, with only printable ASCII characters standing for themselves.
-/
namespace RecordLiteral.Debug

def quoteFor (text : List Char) : Char :=
  if text.contains '\'' && !text.contains '"' then '"' else '\''

def codeEscape (code : Nat) : List Char :=
  if code < 0x100 then '\\' :: 'x' :: Numeral.hexadecimal 2 code
  else if code < 0x10000 then '\\' :: 'u' :: Numeral.hexadecimal 4 code
  else '\\' :: 'U' :: Numeral.hexadecimal 8 code

def letter? : Char → Option Char
  | '\n' => some 'n'
  | '\r' => some 'r'
  | '\t' => some 't'
  | _ => none

/-- Quotes get a backslash when they are in `quotes`. -/
def writeChar (isPlain : Char → Bool) (quotes : List Char) (c : Char) : List Char :=
  if c = '\\' ∨ c ∈ quotes then ['\\', c]
  else match letter? c with
  | some l => ['\\', l]
  | none => if isPlain c then [c] else codeEscape c.toNat

def text (text : List Char) : List Char :=
  let quote := quoteFor text
  quote :: (text.flatMap (writeChar Printable.isPrintable [quote]) ++ [quote])

def isPlainByte (c : Char) : Bool := 0x20 ≤ c.toNat && c.toNat < 0x7f

def quotedBytes (alsoEscaped : List Char) (data : List UInt8) : List Char :=
  let text := data.map fun b => Char.ofNat b.toNat
  let quote := quoteFor text
  'b' :: quote :: (text.flatMap (writeChar isPlainByte (quote :: alsoEscaped)) ++ [quote])

def bytes (data : List UInt8) : List Char := quotedBytes [] data

/-- Bytes of a buffer; a single quote is escaped even between double ones. -/
def buffer (data : List UInt8) : List Char := quotedBytes ['\''] data

end RecordLiteral.Debug
