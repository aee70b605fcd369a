import RecordLiteral.Leaf.Debug
import RecordLiteral.Value

/-! # Debugging text of values

Every kind of container under its name or in its brackets, with its parts as debugging
text between commas.
-/
namespace RecordLiteral

namespace Value

def braced (inner : List Char) : List Char := '\x7b' :: (inner ++ ['\x7d'])
def bracketed (inner : List Char) : List Char := '[' :: (inner ++ [']'])

/-- A tuple of one item has a comma behind it. -/
def tupleText : List (List Char) → List Char
  | [item] => '(' :: (item ++ [',', ')'])
  | items => '(' :: (commaSeparated items ++ [')'])

def setText (kind : SetKind) (elements : List (List Char)) : List Char :=
  match kind, elements with
  | .mutable, [] => applied "set" []
  | .mutable, _ => braced (commaSeparated elements)
  | .frozen, [] => applied "frozenset" []
  | .frozen, _ => applied "frozenset" (braced (commaSeparated elements))

/-- Entries in braces, each with a colon behind its key. -/
def listedText (entries : List (List Char × List Char)) : List Char :=
  braced (commaSeparated (entries.map fun e => e.1 ++ ':' :: ' ' :: e.2))

def mappingText (kind : MapKind) (entries : List (List Char × List Char)) : List Char :=
  match kind with
  | .view _ => applied "mappingproxy" (listedText entries)
  | .dict _ => listedText entries
  | .ordered _ =>
    applied "OrderedDict" <|
      if entries.isEmpty then [] else
        bracketed (commaSeparated (entries.map fun e => tupleText [e.1, e.2]))

mutual

def debug : Value → List Char
  | .leaf l => l.debug
  | .seq (.tuple _) items => tupleText (debugs items)
  | .seq (.list _) items => bracketed (commaSeparated (debugs items))
  | .mapping kind entries => mappingText kind (entryDebugs entries)
  | .set kind elements => setText kind (debugs elements)
  | .record table id =>
    applied "RecordId" (commaSeparated [Debug.text table.toList, debug id])

def debugs : List Value → List (List Char)
  | [] => []
  | v :: rest => debug v :: debugs rest

def entryDebugs : List (Value × Value) → List (List Char × List Char)
  | [] => []
  | (key, item) :: rest => (debug key, debug item) :: entryDebugs rest

end

end Value
end RecordLiteral
