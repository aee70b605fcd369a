import RecordLiteral.Fault
import RecordLiteral.Value.Digest
import RecordLiteral.Value.Equality

/-! # Frozen forms

Dictionaries and sets take what can be digested: leaves other than byte buffers and
signaling numbers, tuples and frozen sets of such values, and records whose frozen id
is of that kind. The frozen form of a value has tuples for sequences and frozen sets
for mappings and sets. A set is checked when it is built, so the frozen form of a
value may fail to exist, and where it exists it may still not be digestible. A container
that holds itself has none.
-/
namespace RecordLiteral

def Leaf.digestFault (l : Leaf) : Option Fault :=
  match l with
  | .buffer .. | .again .. => some (.unhashable l.typeName)
  | l => if l.isSignaling then some .signalingDigest else none

/-- What keeps a leaf from being gone through: it stands for a container met again. -/
def Leaf.copyFault : Leaf → Option Fault
  | .again .. => some .endless
  | _ => none

namespace Value

mutual

def digestFault : Value → Option Fault
  | .leaf l => l.digestFault
  | .seq (.tuple _) items => digestFaultIn items
  | .set .frozen _ => none
  | .record _ id => (freezeFault id).or (frozenDigestFault id)
  | v => some (.unhashable v.qualifiedTypeName)

def digestFaultIn : List Value → Option Fault
  | [] => none
  | v :: rest => (digestFault v).or (digestFaultIn rest)

def freezeFault : Value → Option Fault
  | .leaf l => l.copyFault
  | .record .. => none
  | .seq _ items => freezeFaultIn items
  | .mapping _ entries => entriesFault entries
  | .set _ elements => elementsFault elements

def freezeFaultIn : List Value → Option Fault
  | [] => none
  | v :: rest => (freezeFault v).or (freezeFaultIn rest)

def entriesFault : List (Value × Value) → Option Fault
  | [] => none
  | (key, item) :: rest =>
    (freezeFault item).or ((digestFault key).or ((frozenDigestFault item).or (entriesFault rest)))

def elementsFault : List Value → Option Fault
  | [] => none
  | v :: rest => (freezeFault v).or ((frozenDigestFault v).or (elementsFault rest))

/-- What keeps the frozen form of a value, if it exists, from being digested. -/
def frozenDigestFault : Value → Option Fault
  | .leaf l => l.digestFault
  | .seq _ items => frozenDigestFaultIn items
  | .mapping .. | .set .. => none
  | .record _ id => (freezeFault id).or (frozenDigestFault id)

def frozenDigestFaultIn : List Value → Option Fault
  | [] => none
  | v :: rest => (frozenDigestFault v).or (frozenDigestFaultIn rest)

end

def addTo (elements : List Value) (v : Value) : List Value :=
  if v.isAmong elements = .equal then elements else elements ++ [v]

def distinct (vs : List Value) : List Value := vs.foldl addTo []

mutual

/-- The form by which records are digested. -/
def freeze : Value → Value
  | .leaf l => .leaf l
  | .seq _ items => .seq (.tuple none) (freezeItems items)
  | .mapping _ entries => .set .frozen (distinct (freezeEntries entries))
  | .set _ elements => .set .frozen (distinct (freezeItems elements))
  | .record table id => .record table id

def freezeItems : List Value → List Value
  | [] => []
  | v :: rest => freeze v :: freezeItems rest

def freezeEntries : List (Value × Value) → List Value
  | [] => []
  | (key, item) :: rest => .seq (.tuple none) [key, freeze item] :: freezeEntries rest

end

theorem digestFaultIn_eq_none {items : List Value} :
    digestFaultIn items = none ↔ ∀ v ∈ items, v.digestFault = none := by
  induction items with
  | nil => simp [digestFaultIn]
  | cons v rest ih => simp [digestFaultIn, ih]

theorem freezeFaultIn_eq_none {items : List Value} :
    freezeFaultIn items = none ↔ ∀ v ∈ items, v.freezeFault = none := by
  induction items with
  | nil => simp [freezeFaultIn]
  | cons v rest ih => simp [freezeFaultIn, ih]

theorem frozenDigestFaultIn_eq_none {items : List Value} :
    frozenDigestFaultIn items = none ↔ ∀ v ∈ items, v.frozenDigestFault = none := by
  induction items with
  | nil => simp [frozenDigestFaultIn]
  | cons v rest ih => simp [frozenDigestFaultIn, ih]

theorem entriesFault_eq_none {entries : List (Value × Value)} :
    entriesFault entries = none ↔ ∀ e ∈ entries,
      e.1.digestFault = none ∧ e.2.freezeFault = none ∧ e.2.frozenDigestFault = none := by
  induction entries with
  | nil => simp [entriesFault]
  | cons e rest ih =>
    simp only [entriesFault, Option.or_eq_none_iff, ih, List.forall_mem_cons]
    exact ⟨fun ⟨hf, hk, hd, hr⟩ => ⟨⟨hk, hf, hd⟩, hr⟩, fun ⟨⟨hk, hf, hd⟩, hr⟩ => ⟨hf, hk, hd, hr⟩⟩

theorem elementsFault_eq_none {elements : List Value} :
    elementsFault elements = none ↔ ∀ v ∈ elements,
      v.freezeFault = none ∧ v.frozenDigestFault = none := by
  induction elements with
  | nil => simp [elementsFault]
  | cons v rest ih => simp [elementsFault, ih, and_assoc]

theorem freezeFaultIn_eq_findSome? (items : List Value) :
    freezeFaultIn items = items.findSome? freezeFault := by
  induction items with
  | nil => rfl
  | cons v rest ih =>
    rw [freezeFaultIn, ih, List.findSome?_cons]
    cases v.freezeFault <;> rfl

theorem frozenDigestFaultIn_eq_findSome? (items : List Value) :
    frozenDigestFaultIn items = items.findSome? frozenDigestFault := by
  induction items with
  | nil => rfl
  | cons v rest ih =>
    rw [frozenDigestFaultIn, ih, List.findSome?_cons]
    cases v.frozenDigestFault <;> rfl

theorem entriesFault_eq_findSome? (entries : List (Value × Value)) :
    entriesFault entries = entries.findSome? fun e =>
      e.2.freezeFault.or (e.1.digestFault.or e.2.frozenDigestFault) := by
  induction entries with
  | nil => rfl
  | cons e rest ih =>
    rw [entriesFault, ih, List.findSome?_cons]
    cases e.2.freezeFault <;> cases e.1.digestFault <;> cases e.2.frozenDigestFault <;> rfl

@[simp] theorem freezeItems_eq_map (items : List Value) : freezeItems items = items.map freeze := by
  induction items with
  | nil => rfl
  | cons v rest ih => simp [freezeItems, ih]

@[simp] theorem freezeEntries_eq_map (entries : List (Value × Value)) :
    freezeEntries entries = entries.map fun e => .seq (.tuple none) [e.1, e.2.freeze] := by
  induction entries with
  | nil => rfl
  | cons e rest ih => simp [freezeEntries, ih]

def freeze? (v : Value) : Except Fault Value :=
  match v.freezeFault with
  | some fault => .error fault
  | none => .ok v.freeze

def digest? (v : Value) : Except Fault Nat :=
  match v.digestFault with
  | some fault => .error fault
  | none => .ok v.digest

end Value
end RecordLiteral
