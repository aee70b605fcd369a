import RecordLiteral.Value.Literal
import RecordLiteral.Value.Snapshot

/-! # Entities

Records and raw records as objects with fields. A field is written once, by the
constructor; an attribute that is there is never written again, and none is ever
deleted. The constructor checks its arguments before it writes, logs a rejection before
it reports it, and may be called again on an entity that is complete: then it gets as
far as its first write.
-/
namespace RecordLiteral

inductive EntityKind
  | record
  | rawRecord
  deriving DecidableEq

namespace EntityKind

def typeName : EntityKind → String
  | .record => "RecordId"
  | .rawRecord => "StringRecordId"

/-- The fields, in the order in which the constructor writes them. -/
def fields : EntityKind → List String
  | .record => ["_table", "_id"]
  | .rawRecord => ["_rid"]

def views : EntityKind → List (String × String)
  | .record => [("table", "_table"), ("id", "_id")]
  | .rawRecord => [("rid", "_rid")]

def members : List String :=
  ["equals", "to_json", "__annotations__", "__class__", "__delattr__", "__dir__", "__doc__",
    "__eq__", "__format__", "__ge__", "__getattribute__", "__getstate__", "__gt__", "__hash__",
    "__init__", "__init_subclass__", "__le__", "__lt__", "__module__", "__ne__", "__new__",
    "__reduce__", "__reduce_ex__", "__repr__", "__setattr__", "__sizeof__", "__slots__",
    "__str__", "__subclasshook__"]

end EntityKind

structure Entity where
  kind : EntityKind
  written : List (String × Value)
  deriving DecidableEq

structure Outcome where
  entity : Entity
  log : List String
  fault : Option Fault
  deriving DecidableEq

def Outcome.andThen (o : Outcome) (next : Entity → Outcome) : Outcome :=
  match o.fault with
  | some _ => o
  | none => { next o.entity with log := o.log ++ (next o.entity).log }

namespace Entity

def blank (kind : EntityKind) : Entity := ⟨kind, []⟩

def done (e : Entity) : Outcome := ⟨e, [], none⟩
def fail (fault : Fault) (e : Entity) : Outcome := ⟨e, [], some fault⟩

def reject (reason : Rejection) (e : Entity) : Outcome :=
  ⟨e, [reason.logEntry], some (.rejected reason)⟩

def field? (e : Entity) (name : String) : Option Value := e.written.lookup name

/-- The value of an attribute that is a field or the view of one. -/
def attribute? (e : Entity) (name : String) : Option Value :=
  match e.kind.views.lookup name with
  | some viewed => e.field? viewed
  | none => e.field? name

def hasAttribute (e : Entity) (name : String) : Bool :=
  EntityKind.members.contains name || (e.attribute? name).isSome

def assign (e : Entity) (name : String) (v : Value) : Outcome :=
  if e.hasAttribute name then e.fail (.immutable e.kind.typeName)
  else if e.kind.fields.contains name then done { e with written := e.written ++ [(name, v)] }
  else e.fail (.noAttribute e.kind.typeName name)

def delete (e : Entity) (_name : String) : Outcome := e.fail (.immutable e.kind.typeName)

/-- The constructor of records: a table that is text, and an id of a supported kind,
which is copied. -/
def constructRecord (e : Entity) (table id : Value) : Outcome :=
  match table with
  | .leaf (.text name) =>
    if id.isIdPart then
      (e.assign "_table" table).andThen fun e =>
        match id.snapshot? with
        | .ok copy => e.assign "_id" copy
        | .error fault => e.fail fault
    else e.reject (.id name id.typeName)
  | _ => e.reject (.table table.typeName)

def constructRaw (e : Entity) (source : Value) : Outcome :=
  match source with
  | .leaf (.rawRecord literal) => e.assign "_rid" (.leaf (.text literal))
  | .record .. => e.assign "_rid" (.leaf (.text (String.ofList source.display)))
  | .leaf (.text _) => e.assign "_rid" source
  | _ => e.reject (.source source.typeName)

def construct (e : Entity) (arguments : List Value) : Outcome :=
  match e.kind, arguments with
  | .record, [table, id] => e.constructRecord table id
  | .record, [] => e.fail (.missingArguments e.kind.typeName ["table", "id"])
  | .record, [_] => e.fail (.missingArguments e.kind.typeName ["id"])
  | .rawRecord, [source] => e.constructRaw source
  | .rawRecord, [] => e.fail (.missingArguments e.kind.typeName ["rid"])
  | kind, _ => e.fail (.surplusArguments kind.typeName (kind.fields.length + 1)
      (arguments.length + 1))

def ofValue? : Value → Option Entity
  | .record table id => some ⟨.record, [("_table", .leaf (.text table)), ("_id", id)]⟩
  | .leaf (.rawRecord literal) => some ⟨.rawRecord, [("_rid", .leaf (.text literal))]⟩
  | _ => none

def toValue? (e : Entity) : Option Value :=
  match e.kind, e.field? "_table", e.field? "_id", e.field? "_rid" with
  | .record, some (.leaf (.text table)), some id, _ => some (.record table id)
  | .rawRecord, _, _, some (.leaf (.text literal)) => some (.leaf (.rawRecord literal))
  | _, _, _, _ => none

def missingField (e : Entity) : String :=
  (e.kind.fields.find? fun name => (e.field? name).isNone).getD ""

end Entity

/-- A result together with what was logged on the way to it. -/
structure Logged (α : Type) where
  log : List String
  result : Except Fault α

/-- The value of the entity that an operation completed; one that lacks a field has none. -/
def Outcome.built (o : Outcome) : Logged Value where
  log := o.log
  result :=
    match o.fault, o.entity.toValue? with
    | some fault, _ => .error fault
    | none, some v => .ok v
    | none, none => .error (.noAttribute o.entity.kind.typeName o.entity.missingField)

namespace Value

def newRecord (table id : Value) : Logged Value :=
  ((Entity.blank .record).constructRecord table id).built

def newRawRecord (source : Value) : Logged Value :=
  ((Entity.blank .rawRecord).constructRaw source).built

/-- Whether an entity equals a value, in its own opinion; others have none. -/
def equals? : Value → Value → Option Verdict
  | .record t i, other =>
    match other with
    | .record u j => some (if t = u then deepEquals i j else .unequal)
    | _ => some .unequal
  | .leaf (.rawRecord a), other => some (.ofBool (decide (other = .leaf (.rawRecord a))))
  | v@(.leaf (.foreign ⟨_, _, _, .entity _⟩)), other => some (.ofBool (v.same other))
  | _, _ => none

end Value
end RecordLiteral
