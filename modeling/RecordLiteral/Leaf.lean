import RecordLiteral.Calendar.DateTime
import RecordLiteral.Number.Decimal
import RecordLiteral.Uuid

/-! # Leaves

The values that hold no other values. A key brings together the leaves that compare
equal: numbers by their worth whatever their kind, moments by the instant, bytes and
byte buffers by content. Two leaves are equal when their keys are, except that an
undefined number equals nothing and a signaling one refuses the comparison with any
number.
-/
namespace RecordLiteral

/-- How an object that is not one of the known kinds takes part. -/
inductive Role
  | bare
  /-- It has a form for embedding, but no literal of its own and no equality, so that it
  is not embedded where entities are. -/
  | embeddable (embedded : String)
  /-- It has a literal of its own, a form for embedding, and is equal to itself alone. -/
  | entity (embedded : String)
  /-- It has a literal, but answers neither the question for its embedded form nor the
  question whether it equals another. -/
  | silent
  deriving DecidableEq

structure Foreign where
  ident : Ident
  className : String
  text : String
  role : Role
  deriving DecidableEq

/-- The kinds of containers that may come to hold themselves. -/
inductive Shape
  | tuple
  | list
  | dict
  | ordered
  | view
  deriving DecidableEq

namespace Shape

def typeName : Shape → String
  | .tuple => "tuple"
  | .list => "list"
  | .dict => "dict"
  | .ordered => "OrderedDict"
  | .view => "mappingproxy"

def ellipsis : Shape → String
  | .tuple => "(...)"
  | .list => "[...]"
  | .dict => "\x7b...\x7d"
  | .ordered => "..."
  | .view => "mappingproxy(\x7b...\x7d)"

end Shape

inductive Leaf
  | null
  | bool (b : Bool)
  | int (n : Int)
  | float (x : Double)
  | decimal (x : Decimal)
  /-- Characters are Unicode scalar values, so no text holds half of a surrogate pair. -/
  | text (s : String)
  | uuid (u : Uuid)
  | datetime (t : DateTime)
  | date (d : Date)
  | bytes (data : List UInt8)
  | buffer (ident : Ident) (data : List UInt8)
  | range (bound : Int)
  | function (name : String)
  | foreign (f : Foreign)
  /-- A record literal taken as it is. -/
  | rawRecord (literal : String)
  /-- A container met again inside itself; it has the identity of the outer occurrence. -/
  | again (shape : Shape) (ident : Ident)
  deriving DecidableEq

namespace Leaf

/-- What compares equal has the same key. -/
inductive Key
  | null
  | number (x : Exact)
  | infinite (negative : Bool)
  | undefined (ident : Ident)
  | text (s : String)
  | uuid (u : Uuid)
  | instant (micros : Int)
  | wallClock (micros : Int)
  | day (ordinal : Nat)
  | bytes (data : List UInt8)
  | range (size : Nat)
  | function (name : String)
  | object (ident : Ident)
  | rawRecord (literal : String)
  deriving DecidableEq

def undefinedIdent? : Leaf → Option Ident
  | .float (.undefined ident) => some ident
  | .decimal (.undefined _ _ _ ident) => some ident
  | _ => none

def quantity? : Leaf → Option Quantity
  | .bool b => some (.exact (.ofInt b.toInt))
  | .int n => some (.exact (.ofInt n))
  | .float x => some x.quantity
  | .decimal x => some x.quantity
  | _ => none

/-- The key of a number by its worth; `ident` is for those without. -/
def numberKey (ident : Ident) : Quantity → Key
  | .exact x => .number x
  | .infinite negative => .infinite negative
  | .undefined | .signaling => .undefined ident

def datetimeKey (t : DateTime) : Key :=
  match t.offset with
  | some offset => .instant (t.wallMicros - offset.micros)
  | none => .wallClock t.wallMicros

def key : Leaf → Key
  | .null => .null
  | .bool b => .number (.ofInt b.toInt)
  | .int n => .number (.ofInt n)
  | l@(.float x) => numberKey (l.undefinedIdent?.getD 0) x.quantity
  | l@(.decimal x) => numberKey (l.undefinedIdent?.getD 0) x.quantity
  | .text s => .text s
  | .uuid u => .uuid u
  | .datetime t => datetimeKey t
  | .date d => .day d.ordinal
  | .bytes data => .bytes data
  | .buffer _ data => .bytes data
  | .range bound => .range bound.toNat
  | .function name => .function name
  | .foreign f => .object f.ident
  | .rawRecord literal => .rawRecord literal
  | .again _ ident => .object ident

def isNumber (l : Leaf) : Bool := l.quantity?.isSome
def isUndefined (l : Leaf) : Bool := l.undefinedIdent?.isSome
def isSignaling (l : Leaf) : Bool := l.quantity? == some .signaling

def ident? : Leaf → Option Ident
  | .buffer ident _ => some ident
  | .foreign f => some f.ident
  | .again _ ident => some ident
  | l => l.undefinedIdent?

def typeName : Leaf → String
  | .null => "NoneType"
  | .bool _ => "bool"
  | .int _ => "int"
  | .float _ => "float"
  | .decimal _ => "Decimal"
  | .text _ => "str"
  | .uuid _ => "UUID"
  | .datetime _ => "datetime"
  | .date _ => "date"
  | .bytes _ => "bytes"
  | .buffer .. => "bytearray"
  | .range _ => "range"
  | .function _ => "builtin_function_or_method"
  | .foreign f => f.className
  | .rawRecord _ => "StringRecordId"
  | .again shape _ => shape.typeName

end Leaf
end RecordLiteral
