import RecordLiteral.Fault
import RecordLiteral.Text.Identifier
import RecordLiteral.Text.Quoted
import RecordLiteral.Value.Debug

/-! # Literals

The text of a value in the query language. Text, moments, unique identifiers and
records are quoted behind a letter for their kind; sequences and sets are arrays, and
mappings are objects whose keys are written as identifiers. What has no literal of its
own is shown as it is displayed.

A record is written as its table and its id with a colon between them. An id that is
text is written as an identifier, and one that is a whole number beyond 64 bits is
delimited.
-/
namespace RecordLiteral

namespace Literal

def maxInteger : Nat := 9223372036854775807

def tableSeparator : Char := ':'
def uuidMark : Char := 'u'
def recordMark : Char := 'r'
def textMark : Char := 's'
def datetimeMark : Char := 'd'
def decimalSuffix : List Char := ['d', 'e', 'c']

def quoted (mark : Char) (text : List Char) : List Char := mark :: Quoted.write .unicode text

def array (items : List (List Char)) : List Char :=
  if items.isEmpty then ['[', ']'] else '[' :: ' ' :: (commaSeparated items ++ [' ', ']'])

/-- The entries are pairs of display text of the key and literal of the item. -/
def object (entries : List (List Char × List Char)) : List Char :=
  if entries.isEmpty then ['\x7b', '\x7d'] else
    '\x7b' :: ' ' ::
      (commaSeparated (entries.map fun e => Identifier.write e.1 ++ ':' :: ' ' :: e.2)
        ++ [' ', '\x7d'])

def infinite (negative : Bool) : List Char := (if negative then "-Infinity" else "Infinity").toList

def float : Double → List Char
  | .undefined _ => ['N', 'a', 'N']
  | .infinite negative => infinite negative
  | x => x.text

def decimal : Decimal → List Char
  | .undefined .. => ['N', 'a', 'N']
  | .infinite negative => infinite negative
  | .finite negative coefficient exponent =>
    Decimal.signText negative ++ (Decimal.fixedPoint coefficient exponent ++ decimalSuffix)

/-- A moment without offset is taken to be in universal time. -/
def datetime (t : DateTime) : List Char := quoted datetimeMark (t.assumeUtc.text 'T')

def bounded (fits : Bool) (text : List Char) : List Char :=
  if fits then text else Identifier.delimit text

def integerPart (n : Int) : List Char := bounded (decide (n ≤ maxInteger)) (Numeral.signed n)

def uuidPart (u : Uuid) : List Char := uuidMark :: '"' :: (u.text ++ ['"'])

end Literal

open Literal

def Leaf.literal : Leaf → List Char
  | .null => ['N', 'U', 'L', 'L']
  | .bool b => (if b then "true" else "false").toList
  | .int n => Numeral.signed n
  | .float x => Literal.float x
  | .decimal x => Literal.decimal x
  | .text s => quoted textMark s.toList
  | .uuid u => quoted uuidMark u.text
  | .datetime t => Literal.datetime t
  | .date d => Literal.datetime (.midnight d)
  | .rawRecord literal => quoted recordMark literal.toList
  | .foreign f =>
    match f.role with
    | .bare | .embeddable _ => f.text.toList
    | .entity _ | .silent => quoted recordMark f.text.toList
  | l => l.display

namespace Value

/-- The id of a record, given its literal for those that have no other form. -/
def idPartWith (literal : List Char) : Value → List Char
  | .leaf (.uuid u) => uuidPart u
  | .leaf (.text s) => Identifier.write s.toList
  | .leaf (.int n) => integerPart n
  | .leaf (.bool b) => Leaf.boolName b
  | _ => literal

def recordText (table : String) (idPart : List Char) : List Char :=
  Identifier.write table.toList ++ tableSeparator :: idPart

mutual

def literal : Value → List Char
  | .leaf l => l.literal
  | .seq _ items => array (literals items)
  | .mapping _ entries => object (entryLiterals entries)
  | .set _ elements => array (literals elements)
  | .record table id => quoted recordMark (recordText table (idPartWith (literal id) id))

/-- What a value is shown as, also where it is the key of an object. A view is shown as
the dictionary that it looks into. -/
def display : Value → List Char
  | .leaf l => l.display
  | .mapping (.view _) entries => listedText (entryDebugs entries)
  | .record table id => recordText table (idPartWith (literal id) id)
  | v => debug v

def literals : List Value → List (List Char)
  | [] => []
  | v :: rest => literal v :: literals rest

def entryLiterals : List (Value × Value) → List (List Char × List Char)
  | [] => []
  | (key, item) :: rest => (display key, literal item) :: entryLiterals rest

end

@[simp] theorem literals_eq_map (items : List Value) : literals items = items.map literal := by
  induction items with
  | nil => rfl
  | cons v rest ih => simp [literals, ih]

@[simp] theorem entryLiterals_eq_map (entries : List (Value × Value)) :
    entryLiterals entries = entries.map fun e => (e.1.display, e.2.literal) := by
  induction entries with
  | nil => rfl
  | cons e rest ih => simp [entryLiterals, ih]

def idPart (v : Value) : List Char := idPartWith v.literal v

/-- The text of a number as the id of a record; only numbers can be told too large. -/
def numberPart? : Value → Except Fault (List Char)
  | .leaf (.bool b) => .ok (Leaf.boolName b)
  | .leaf (.int n) => .ok (integerPart n)
  | .leaf (.float x) => .ok (bounded (x.atMost maxInteger) x.text)
  | .leaf (.decimal x) =>
    match x.atMost? maxInteger with
    | some fits => .ok (bounded fits x.text)
    | none => .error .signalingComparison
  | .mapping (.view _) _ => .error (.unordered "dict")
  | v => .error (.unordered v.qualifiedTypeName)

end Value
end RecordLiteral
