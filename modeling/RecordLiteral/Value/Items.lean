import RecordLiteral.Dictionary
import RecordLiteral.Value.Loop

/-! # Items

Reading and changing what stands at a position or under a key. Positions count from
the end when they are negative. Only lists, dictionaries and byte buffers can be
changed; a change gives the new content of the object.
-/
namespace RecordLiteral.Value

/-- A whole number, a boolean counting as zero or one. -/
def integer? : Value → Option Int
  | .leaf (.int n) => some n
  | .leaf (.bool b) => some b.toInt
  | _ => none

def maxPosition : Int := 0x7fffffffffffffff

def position? (key : Value) (otherwise : Fault) : Except Fault Int :=
  match key.integer? with
  | none => .error otherwise
  | some n => if -maxPosition - 1 ≤ n ∧ n ≤ maxPosition then .ok n else .error .positionTooLarge

/-- A position within a size, counting from the end when negative. -/
def within? (size : Nat) (position : Int) (otherwise : Fault) : Except Fault Nat :=
  let fromStart := if position < 0 then position + size else position
  if 0 ≤ fromStart ∧ fromStart < size then .ok fromStart.toNat else .error otherwise

def place? (size : Nat) (container : String) (key : Value) (outOfRange : Fault) :
    Except Fault Nat := do
  let position ← key.position? (.notAnIndex container key.qualifiedTypeName)
  within? size position outOfRange

def byte? (v : Value) : Except Fault UInt8 :=
  match v.integer? with
  | none => .error (.notAnInteger v.qualifiedTypeName)
  | some n => if 0 ≤ n ∧ n < 256 then .ok (UInt8.ofNat n.toNat) else .error .notAByte

def item? (container key : Value) : Except Fault Value :=
  match container with
  | .seq kind items => do
    let name := match kind with
      | .tuple _ => "tuple"
      | .list _ => "list"
    let i ← key.place? items.length name (.outOfRange name)
    return container.part (items[i]?.getD (.leaf .null))
  | .mapping _ entries => do
    match ← Dictionary.get? entries key with
    | some item => return container.part item
    | none => throw (Dictionary.missing key)
  | .leaf (.text s) => do
    let position ← key.position? (.notATextIndex key.qualifiedTypeName)
    let i ← within? s.length position (.outOfRange "string")
    return .leaf (.text (String.ofList (s.toList[i]?.toList)))
  | .leaf (.bytes data) => do
    let i ← key.place? data.length "byte" .outOfRangeOfBytes
    return .leaf (.int (data[i]?.getD 0).toNat)
  | .leaf (.buffer _ data) => do
    let i ← key.place? data.length "bytearray" (.outOfRange "bytearray")
    return .leaf (.int (data[i]?.getD 0).toNat)
  | .leaf (.range bound) =>
    match key.integer? with
    | none => .error (.notAnIndex "range" key.qualifiedTypeName)
    | some n => do
      let i ← within? bound.toNat n (.outOfRange "range object")
      return .leaf (.int i)
  | v => .error (.noItems v.qualifiedTypeName)

/-- How an item is added at the end, giving the new content, for what can grow. -/
def append? (container : Value) : Except Fault (Value → Except Fault Value) :=
  match container with
  | .seq (.list ident) items => .ok fun item => .ok (.seq (.list ident) (items ++ [item]))
  | .leaf (.buffer ident data) =>
    .ok fun item => do return .leaf (.buffer ident (data ++ [← item.byte?]))
  | v => .error (.noAttribute v.qualifiedTypeName "append")

/-- Whether items have positions or can be looked for, so that a position is tried first. -/
def hasPositions : Value → Bool
  | .seq .. | .mapping .. | .set .. | .record .. => true
  | .leaf (.text _) | .leaf (.bytes _) | .leaf (.buffer ..) | .leaf (.range _) => true
  | .leaf (.uuid _) | .leaf (.rawRecord _) => true
  | .leaf (.foreign f) => f.className != "object"
  | _ => false

/-- Why a container that cannot be changed refuses; a position is looked at before. -/
def refusal (container key : Value) (byPosition byKey : Fault) : Fault :=
  if container.hasPositions then
    match key.position? byKey with
    | .ok _ => byPosition
    | .error fault => fault
  else byKey

def put? (container key item : Value) : Except Fault Value :=
  match container with
  | .seq (.list ident) items => do
    let i ← key.place? items.length "list" (.outOfRange "list assignment")
    return .seq (.list ident) (items.set i item)
  | .mapping (.dict ident) entries =>
    return .mapping (.dict ident) (← Dictionary.put? entries key item)
  | .mapping (.ordered ident) entries =>
    return .mapping (.ordered ident) (← Dictionary.put? entries key item)
  | .leaf (.buffer ident data) => do
    let position ← key.position? (.notAnIndex "bytearray" key.qualifiedTypeName)
    let byte ← item.byte?
    let i ← within? data.length position (.outOfRange "bytearray")
    return .leaf (.buffer ident (data.set i byte))
  | v =>
    let fault := .noAssignment v.qualifiedTypeName
    .error (v.refusal key fault fault)

def remove? (container key : Value) : Except Fault Value :=
  match container with
  | .seq (.list ident) items => do
    let i ← key.place? items.length "list" (.outOfRange "list assignment")
    return .seq (.list ident) (items.eraseIdx i)
  | .mapping (.dict ident) entries =>
    return .mapping (.dict ident) (← removeEntry entries)
  | .mapping (.ordered ident) entries =>
    return .mapping (.ordered ident) (← removeEntry entries)
  | .leaf (.buffer ident data) => do
    let i ← key.place? data.length "bytearray" (.outOfRange "bytearray")
    return .leaf (.buffer ident (data.eraseIdx i))
  | v =>
    let name := v.qualifiedTypeName
    .error (v.refusal key (.noDeletion name true) (.noDeletion name false))
where
  removeEntry (entries : List (Value × Value)) : Except Fault (List (Value × Value)) := do
    match ← Dictionary.erase? entries key with
    | some rest => return rest
    | none => throw (Dictionary.missing key)

end RecordLiteral.Value
