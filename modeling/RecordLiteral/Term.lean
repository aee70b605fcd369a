import RecordLiteral.Entity
import RecordLiteral.Value.Items

/-! # Terms

Expressions that build values. Every evaluation of a container or of an object makes a
new one, so the identities inside a term do not matter; variables stand for the objects
they are bound to, without a copy. Parts are evaluated from left to right, and the first
fault ends the evaluation.
-/
namespace RecordLiteral

inductive Term
  | leaf (l : Leaf)
  | seq (kind : SeqKind) (items : List Term)
  | mapping (kind : MapKind) (entries : List (Term × Term))
  | set (kind : SetKind) (elements : List Term)
  | record (table id : Term)
  | rawRecord (source : Term)
  | variable (name : String)
  | idOf (name : String)
  | item (container key : Term)
  /-- What cannot be read. -/
  | fault (reason : Fault)

/-- Gives an object its identity. -/
def Leaf.withIdent (ident : Ident) : Leaf → Leaf
  | .float (.undefined _) => .float (.undefined ident)
  | .decimal (.undefined signaling negative payload _) =>
    .decimal (.undefined signaling negative payload ident)
  | .buffer _ data => .buffer ident data
  | .foreign f => .foreign { f with ident }
  | l => l

def SeqKind.withIdent (ident : Ident) : SeqKind → SeqKind
  | .tuple _ => .tuple (some ident)
  | .list _ => .list ident

def MapKind.withIdent (ident : Ident) : MapKind → MapKind
  | .view _ => .view (some ident)
  | .dict _ => .dict ident
  | .ordered _ => .ordered ident

/-- What variables are bound to, what is kept in the dictionary, the next identity to be
given out, and what has been logged. -/
structure Workspace where
  bindings : List (String × Value)
  dictionary : List (Value × Value)
  nextIdent : Ident
  log : List String

def Workspace.empty : Workspace := ⟨[], [], 0, []⟩

/-- Work that may fail and that leaves the workspace as it was when it failed. -/
abbrev Work := ExceptT Fault (StateM Workspace)

namespace Work

def newIdent : Work Ident := do
  let ws ← get
  set { ws with nextIdent := ws.nextIdent + 1 }
  return ws.nextIdent

def ofLogged {α : Type} (l : Logged α) : Work α := do
  modify fun ws => { ws with log := ws.log ++ l.log }
  ofExcept l.result

def lookup (name : String) : Work Value := do
  match (← get).bindings.lookup name with
  | some v => return v
  | none => throw (.missingKey (String.ofList (Debug.text name.toList)))

def addElement (elements : List Value) (v : Value) : Work (List Value) :=
  match v.digestFault with
  | some fault => throw fault
  | none => return Value.addTo elements v

def frozenSet (vs : List Value) : Work Value := do
  return .set .frozen (← vs.foldlM addElement [])

end Work

namespace Value

def attribute? (v : Value) (name : String) : Except Fault Value :=
  match (Entity.ofValue? v).bind (·.attribute? name) with
  | some field => .ok field
  | none => .error (.noAttribute v.qualifiedTypeName name)

end Value

namespace Term

open Work

mutual

def eval : Term → Work Value
  | .leaf l => do return .leaf (l.withIdent (← newIdent))
  | .seq kind items => do
    let values ← evalItems items
    return .seq (kind.withIdent (← newIdent)) values
  | .mapping kind entries => do
    let values ← evalEntries [] entries
    return .mapping (kind.withIdent (← newIdent)) values
  | .set kind elements => do return .set kind (← evalElements [] elements)
  | .record table id => do
    let table ← eval table
    let id ← eval id
    ofLogged (Value.newRecord table id)
  | .rawRecord source => do ofLogged (Value.newRawRecord (← eval source))
  | .variable name => lookup name
  | .idOf name => do ofExcept ((← lookup name).attribute? "id")
  | .item container key => do
    let container ← eval container
    let key ← eval key
    ofExcept (container.item? key)
  | .fault reason => throw reason

def evalItems : List Term → Work (List Value)
  | [] => return []
  | t :: rest => do
    let v ← eval t
    return v :: (← evalItems rest)

def evalElements (elements : List Value) : List Term → Work (List Value)
  | [] => return elements
  | t :: rest => do evalElements (← addElement elements (← eval t)) rest

def evalEntries (entries : List (Value × Value)) :
    List (Term × Term) → Work (List (Value × Value))
  | [] => return entries
  | (key, value) :: rest => do
    let k ← eval key
    let v ← eval value
    evalEntries (← ofExcept (Dictionary.put? entries k v)) rest

end

end Term
end RecordLiteral
