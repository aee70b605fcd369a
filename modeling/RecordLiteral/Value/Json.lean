import RecordLiteral.Value.Literal

/-! # JSON text

Null, booleans, numbers, text, sequences and dictionaries have JSON forms of their own.
Records are embedded as the text of their literal and unique identifiers as their text;
for any other value, mappings that are views included, there is no JSON text.
-/
namespace RecordLiteral

namespace Value

/-- The text that stands for a value without a JSON form; a silent entity gives none. -/
def embedded? : Value → Except Fault (Option (List Char))
  | .leaf (.uuid u) => .ok (some u.text)
  | .leaf (.rawRecord literal) => .ok (some literal.toList)
  | .leaf (.foreign ⟨_, _, _, .entity embedded⟩) => .ok (some embedded.toList)
  | .leaf (.foreign ⟨_, _, _, .silent⟩) => .ok none
  | v@(.record ..) => .ok (some v.display)
  | v => .error (.notEmbeddable v.typeName)

def jsonScalar? : Value → Option (List Char)
  | .leaf .null => some "null".toList
  | .leaf (.bool b) => some (if b then "true" else "false").toList
  | .leaf (.int n) => some (Numeral.signed n)
  | .leaf (.float x) => some (Literal.float x)
  | _ => none

/-- Keys are text, or scalars whose form is taken as text. -/
def jsonKey? (alphabet : Quoted.Alphabet) : Value → Except Fault (List Char)
  | .leaf (.text s) => .ok (Quoted.write alphabet s.toList)
  | v =>
    match v.jsonScalar? with
    | some text => .ok (Quoted.write alphabet text)
    | none => .error (.badObjectKey v.qualifiedTypeName)

def jsonEmbedded? (alphabet : Quoted.Alphabet) (v : Value) : Except Fault (List Char) :=
  v.embedded?.map fun
    | some text => Quoted.write alphabet text
    | none => "null".toList

mutual

def json? (alphabet : Quoted.Alphabet) : Value → Except Fault (List Char)
  | .leaf (.text s) => .ok (Quoted.write alphabet s.toList)
  | .leaf l =>
    match jsonScalar? (.leaf l) with
    | some text => .ok text
    | none => jsonEmbedded? alphabet (.leaf l)
  | .seq _ items => do return bracketed (commaSeparated (← jsonItems? alphabet items))
  | .mapping (.view ident) entries => jsonEmbedded? alphabet (.mapping (.view ident) entries)
  | .mapping _ entries => do return braced (commaSeparated (← jsonEntries? alphabet entries))
  | .set kind elements => jsonEmbedded? alphabet (.set kind elements)
  | .record table id => jsonEmbedded? alphabet (.record table id)

def jsonItems? (alphabet : Quoted.Alphabet) : List Value → Except Fault (List (List Char))
  | [] => .ok []
  | v :: rest => do return (← json? alphabet v) :: (← jsonItems? alphabet rest)

/-- A key is looked at before its item. -/
def jsonEntries? (alphabet : Quoted.Alphabet) :
    List (Value × Value) → Except Fault (List (List Char))
  | [] => .ok []
  | (key, item) :: rest => do
    let name ← jsonKey? alphabet key
    let text ← json? alphabet item
    return (name ++ ':' :: ' ' :: text) :: (← jsonEntries? alphabet rest)

end

end Value
end RecordLiteral
