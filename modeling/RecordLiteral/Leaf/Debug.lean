import RecordLiteral.Leaf
import RecordLiteral.Number.Shortest
import RecordLiteral.Text.Debug

/-! # Debugging text of leaves

What a leaf looks like in diagnostics: text in quotes, and every number, moment and
identifier under the name of its kind. The display text is the same but for text,
numbers, moments and identifiers, which are shown bare.
-/
namespace RecordLiteral

def commaSeparated (parts : List (List Char)) : List Char := [',', ' '].intercalate parts

def applied (name : String) (inner : List Char) : List Char :=
  name.toList ++ '(' :: (inner ++ [')'])

def singleQuoted (text : List Char) : List Char := '\'' :: (text ++ ['\''])

namespace Offset

/-- A duration in microseconds as whole days, seconds and microseconds, of which only
the days may be negative. -/
def durationText (micros : Int) : List Char :=
  let days := micros.fdiv 86400000000
  let rest := (micros.fmod 86400000000).toNat
  let part (name : String) (n : Int) : List (List Char) :=
    if n = 0 then [] else [name.toList ++ '=' :: Numeral.signed n]
  applied "datetime.timedelta" <| commaSeparated <|
    part "days" days ++ part "seconds" ↑(rest / 1000000) ++ part "microseconds" ↑(rest % 1000000)

def debug (o : Offset) : List Char :=
  if o.micros = 0 then "datetime.timezone.utc".toList
  else applied "datetime.timezone" (durationText o.micros)

end Offset

/-- Microseconds are left out when they are zero, and then seconds as well. -/
def DateTime.debug (t : DateTime) : List Char :=
  let fine :=
    if t.micro.val ≠ 0 then [t.second.val, t.micro.val]
    else if t.second.val ≠ 0 then [t.second.val] else []
  let numbers := [t.date.year, t.date.month, t.date.day, t.hour.val, t.minute.val] ++ fine
  applied "datetime.datetime" <| commaSeparated <|
    numbers.map Numeral.natural ++ (t.offset.map ("tzinfo=".toList ++ ·.debug)).toList

def Date.debug (d : Date) : List Char :=
  applied "datetime.date" (commaSeparated ([d.year, d.month, d.day].map Numeral.natural))

namespace Leaf

def boolName (b : Bool) : List Char := (if b then "True" else "False").toList

def debug : Leaf → List Char
  | .null => "None".toList
  | .bool b => boolName b
  | .int n => Numeral.signed n
  | .float x => x.text
  | .decimal x => applied "Decimal" (singleQuoted x.text)
  | .text s => Debug.text s.toList
  | .uuid u => applied "UUID" (singleQuoted u.text)
  | .datetime t => t.debug
  | .date d => d.debug
  | .bytes data => Debug.bytes data
  | .buffer _ data => applied "bytearray" (Debug.buffer data)
  | .range bound => applied "range" (commaSeparated [['0'], Numeral.signed bound])
  | .function name => "<built-in function ".toList ++ name.toList ++ ['>']
  | .foreign f => '<' :: (f.className.toList ++ ['>'])
  | .rawRecord literal => applied "StringRecordId" (Debug.text literal.toList)
  | .again shape _ => shape.ellipsis.toList

def display : Leaf → List Char
  | .decimal x => x.text
  | .text s => s.toList
  | .uuid u => u.text
  | .datetime t => t.text ' '
  | .date d => d.text
  | .foreign f => f.text.toList
  | .rawRecord literal => literal.toList
  | l => l.debug

end Leaf

end RecordLiteral
