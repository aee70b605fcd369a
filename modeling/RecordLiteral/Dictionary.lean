import RecordLiteral.Value.Debug
import RecordLiteral.Value.Frozen

/-! # Dictionaries

Entries in the order in which their keys came in. A key is found by plain equality and
has to be digestible. Putting a value under a key that is there replaces the value
and keeps the key and its place.
-/
namespace RecordLiteral.Dictionary

def locate (key : Value) : List (Value × Value) → Except Fault (Option Nat)
  | [] => .ok none
  | (stored, _) :: rest =>
    match Value.isFor stored key with
    | .equal => .ok (some 0)
    | .unequal => (locate key rest).map (·.map (· + 1))
    | .signals => .error .signalingComparison

def index? (entries : List (Value × Value)) (key : Value) : Except Fault (Option Nat) :=
  match key.digestFault with
  | some fault => .error fault
  | none => locate key entries

def get? (entries : List (Value × Value)) (key : Value) : Except Fault (Option Value) := do
  let place ← index? entries key
  return place.bind fun i => entries[i]?.map (·.2)

def put? (entries : List (Value × Value)) (key item : Value) :
    Except Fault (List (Value × Value)) := do
  match ← index? entries key with
  | some i => return entries.modify i fun entry => (entry.1, item)
  | none => return entries ++ [(key, item)]

def erase? (entries : List (Value × Value)) (key : Value) :
    Except Fault (Option (List (Value × Value))) := do
  let place ← index? entries key
  return place.map entries.eraseIdx

def missing (key : Value) : Fault := .missingKey (String.ofList key.debug)

/-- What stands under a key, and the entries without it. An empty dictionary lacks every
key, whether or not it can be digested. -/
def take? (entries : List (Value × Value)) (key : Value) :
    Except Fault (Value × List (Value × Value)) :=
  if entries.isEmpty then .error (missing key) else do
    match ← get? entries key, ← erase? entries key with
    | some item, some rest => return (item, rest)
    | _, _ => throw (missing key)

end RecordLiteral.Dictionary
