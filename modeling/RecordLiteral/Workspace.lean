import RecordLiteral.Term
import RecordLiteral.Value.Json

/-! # Workspaces

Steps that bind variables, change objects in place, and keep values in a dictionary. An
object may be reached through several variables, containers and records at once, and
also from inside itself, so a change of it is written at every occurrence. A step that
fails has changed nothing that a later step can see.
-/
namespace RecordLiteral

inductive Handle
  | buffer (ident : Ident)
  | container (shape : Shape) (ident : Ident)
  deriving DecidableEq

namespace Value

/-- The object that a value is, if it can be changed in place; a container met again
inside itself is the outer one. -/
def handle? : Value → Option Handle
  | .leaf (.buffer ident _) => some (.buffer ident)
  | .leaf (.again shape ident) => some (.container shape ident)
  | .seq (.list ident) _ => some (.container .list ident)
  | .mapping (.dict ident) _ => some (.container .dict ident)
  | .mapping (.ordered ident) _ => some (.container .ordered ident)
  | _ => none

mutual

def substitute (handle : Handle) (content : Value) : Value → Value
  | .leaf l => if (Value.leaf l).handle? = some handle then content else .leaf l
  | .seq kind items =>
    if (Value.seq kind []).handle? = some handle then content
    else .seq kind (substituteItems handle content items)
  | .mapping kind entries =>
    if (Value.mapping kind []).handle? = some handle then content
    else .mapping kind (substituteEntries handle content entries)
  | .set kind elements => .set kind (substituteItems handle content elements)
  | .record table id => .record table (substitute handle content id)

def substituteItems (handle : Handle) (content : Value) : List Value → List Value
  | [] => []
  | v :: rest => substitute handle content v :: substituteItems handle content rest

def substituteEntries (handle : Handle) (content : Value) :
    List (Value × Value) → List (Value × Value)
  | [] => []
  | (key, item) :: rest =>
    (substitute handle content key, substitute handle content item) ::
      substituteEntries handle content rest

end

@[simp] theorem substituteItems_eq_map (handle : Handle) (content : Value) (items : List Value) :
    substituteItems handle content items = items.map (substitute handle content) := by
  induction items with
  | nil => rfl
  | cons v rest ih => simp [substituteItems, ih]

@[simp] theorem substituteEntries_eq_map (handle : Handle) (content : Value)
    (entries : List (Value × Value)) :
    substituteEntries handle content entries =
      entries.map fun e => (substitute handle content e.1, substitute handle content e.2) := by
  induction entries with
  | nil => rfl
  | cons e rest ih => simp [substituteEntries, ih]

/-- A value after the object that a content belongs to has got this content; what has no
handle is no change. -/
def update (content v : Value) : Value :=
  match content.handle? with
  | none => v
  | some handle => substitute handle content v

/-- The same for a value on its own, which may come to hold itself. -/
def renew (content v : Value) : Value := (update content v).cut []

end Value

inductive Reading
  | display
  | debug
  | embedded
  | attributeNamed (name : String)

inductive Step
  | bind (name : String) (value : Term)
  | bindRecord (name : String) (table id : Term)
  | bindRawRecord (name : String) (source : Term)
  | state (name : String)
  | read (name : String) (what : Reading)
  | render (value : Term)
  | compare (a b : Term)
  | assign (name field : String) (value : Term)
  | delete (name field : String)
  | construct (name : String) (arguments : List Term)
  | append (target value : Term)
  | put (target key value : Term)
  | remove (target key : Term)
  | store (key value : Term)
  | lookup (key : Term)
  | forget (key : Term)
  | keys

structure Comparison where
  own : Option Bool
  plain : Bool
  deep : Bool
  deriving DecidableEq

inductive Answer
  | done
  | nothing
  | entity (v : Value)
  | value (v : Value)
  | text (s : List Char)
  | comparison (c : Comparison)
  | count (n : Nat)
  | found (v : Option Value)
  | texts (ss : List (List Char))

def Verdict.toBool? : Verdict → Except Fault Bool
  | .equal => .ok true
  | .unequal => .ok false
  | .signals => .error .signalingComparison

namespace Value

def compare? (a b : Value) : Except Fault Comparison := do
  let own ← (equals? a b).mapM Verdict.toBool?
  let plain ← (plainEquals a b).toBool?
  let deep ← (deepEquals a b).toBool?
  return ⟨own, plain, deep⟩

/-- What is read of a value; the form for embedding is that of objects that have one of
their own. -/
def read? (v : Value) : Reading → Except Fault Answer
  | .display => .ok (.text v.display)
  | .debug => .ok (.text v.debug)
  | .embedded =>
    match v with
    | .record .. | .leaf (.rawRecord _) | .leaf (.foreign ⟨_, _, _, .entity _⟩)
    | .leaf (.foreign ⟨_, _, _, .silent⟩) =>
      v.embedded?.map fun | some text => .text text | none => .nothing
    | .leaf (.foreign ⟨_, _, _, .embeddable embedded⟩) => .ok (.text embedded.toList)
    | v => .error (.noAttribute v.qualifiedTypeName "to_json")
  | .attributeNamed name => (v.attribute? name).map .value

end Value

namespace Workspace

def bind (ws : Workspace) (name : String) (v : Value) : Workspace :=
  { ws with bindings := (name, v) :: ws.bindings.filter (·.1 != name) }

def write (ws : Workspace) (content : Value) : Workspace :=
  { ws with
    bindings := ws.bindings.map fun entry => (entry.1, content.renew entry.2)
    dictionary := ws.dictionary.map fun entry => (content.update entry.1, content.renew entry.2) }

end Workspace

namespace Step

open Work

def entity (wanted : String) (v : Value) : Work Entity :=
  match Entity.ofValue? v with
  | some e => return e
  | none => throw (.noAttribute v.qualifiedTypeName wanted)

/-- Binds a variable to an entity as an operation left it, then reports the fault. -/
def finish (name : String) (o : Outcome) : Work Answer := do
  modify fun ws => { ws with log := ws.log ++ o.log }
  match o.entity.toValue? with
  | some v => modify (·.bind name v)
  | none => pure ()
  match o.fault with
  | some fault => throw fault
  | none => return .done

def evalAll (terms : List Term) : Work (List Value) := Term.evalItems terms

def appended (target value : Term) : Work Value := do
  let container ← target.eval
  let append ← ofExcept container.append?
  ofExcept (append (← value.eval))

def placed (target key value : Term) : Work Value := do
  let v ← value.eval
  let container ← target.eval
  let k ← key.eval
  ofExcept (container.put? k v)

def removed (target key : Term) : Work Value := do
  let container ← target.eval
  let k ← key.eval
  ofExcept (container.remove? k)

def perform : Step → Work Answer
  | .bind name value => do
    let v ← value.eval
    modify (·.bind name v)
    return .done
  | .bindRecord name table id => do
    let v ← (Term.record table id).eval
    modify (·.bind name v)
    return .entity v
  | .bindRawRecord name source => do
    let v ← (Term.rawRecord source).eval
    modify (·.bind name v)
    return .entity v
  | .state name => do
    let e ← entity "rid" (← Work.lookup name)
    match e.toValue? with
    | some v => return .entity v
    | none => throw (.noAttribute e.kind.typeName e.missingField)
  | .read name what => do ofExcept ((← Work.lookup name).read? what)
  | .render value => do return .text (← value.eval).literal
  | .compare a b => do
    let a ← a.eval
    let b ← b.eval
    let (a, b) := a.align b
    return .comparison (← ofExcept (a.compare? b))
  | .assign name field value => do
    let v ← Work.lookup name
    let item ← value.eval
    finish name ((← entity field v).assign field item)
  | .delete name field => do
    let v ← Work.lookup name
    finish name ((← entity field v).delete field)
  | .construct name arguments => do
    let v ← Work.lookup name
    let values ← evalAll arguments
    finish name ((← entity "__init__" v).construct values)
  | .append target value => do
    let content ← appended target value
    modify (·.write content)
    return .nothing
  | .put target key value => do
    let content ← placed target key value
    modify (·.write content)
    return .done
  | .remove target key => do
    let content ← removed target key
    modify (·.write content)
    return .done
  | .store key value => do
    let v ← value.eval
    let k ← key.eval
    let entries ← ofExcept (Dictionary.put? (← get).dictionary k v)
    modify fun ws => { ws with dictionary := entries }
    return .count entries.length
  | .lookup key => do
    let k ← key.eval
    return .found (← ofExcept (Dictionary.get? (← get).dictionary k))
  | .forget key => do
    let k ← key.eval
    let (item, rest) ← ofExcept (Dictionary.take? (← get).dictionary k)
    modify fun ws => { ws with dictionary := rest }
    return .found (some item)
  | .keys => do return .texts ((← get).dictionary.map fun entry => entry.1.display)

end Step

def Workspace.step (ws : Workspace) (s : Step) : Logged Answer × Workspace :=
  let (result, after) := (s.perform.run).run { ws with log := [] }
  (⟨after.log, result⟩, after)

/-- The answers to steps one after the other, and the workspace after the last. -/
def Workspace.run (ws : Workspace) : List Step → List (Logged Answer) × Workspace
  | [] => ([], ws)
  | s :: rest =>
    let (answer, after) := ws.step s
    let (answers, last) := after.run rest
    (answer :: answers, last)

/-- Work done on its own, in an empty workspace. -/
def Work.alone {α : Type} (work : Work α) : Logged α :=
  let (result, after) := work.run.run Workspace.empty
  ⟨after.log, result⟩

end RecordLiteral
