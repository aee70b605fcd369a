import RecordLiteral.Value.Frozen

/-! # Snapshots

A snapshot has the same content in read-only containers: tuples, views and frozen
sets. Keys and all that is not a container are kept, byte buffers included. Sets are
built anew, with the checks of a set that is built. A container that holds itself cannot
be copied.
-/
namespace RecordLiteral.Value

mutual

def snapshot : Value → Value
  | .leaf l => .leaf l
  | .seq _ items => .seq (.tuple none) (snapshotItems items)
  | .mapping _ entries => .mapping (.view none) (snapshotEntries entries)
  | .set _ elements => .set .frozen (distinct (snapshotItems elements))
  | .record table id => .record table id

def snapshotItems : List Value → List Value
  | [] => []
  | v :: rest => snapshot v :: snapshotItems rest

def snapshotEntries : List (Value × Value) → List (Value × Value)
  | [] => []
  | (key, item) :: rest => (key, snapshot item) :: snapshotEntries rest

end

mutual

/-- What keeps a value from being copied: that it holds itself, or an element whose copy
cannot be digested. -/
def snapshotFault : Value → Option Fault
  | .leaf l => l.copyFault
  | .record .. => none
  | .seq _ items => snapshotFaultIn items
  | .mapping _ entries => snapshotEntriesFault entries
  | .set _ elements => snapshotElementsFault elements

def snapshotFaultIn : List Value → Option Fault
  | [] => none
  | v :: rest => (snapshotFault v).or (snapshotFaultIn rest)

def snapshotEntriesFault : List (Value × Value) → Option Fault
  | [] => none
  | (_, item) :: rest => (snapshotFault item).or (snapshotEntriesFault rest)

def snapshotElementsFault : List Value → Option Fault
  | [] => none
  | v :: rest =>
    (snapshotFault v).or ((digestFault (snapshot v)).or (snapshotElementsFault rest))

end

@[simp] theorem snapshotItems_eq_map (items : List Value) :
    snapshotItems items = items.map snapshot := by
  induction items with
  | nil => rfl
  | cons v rest ih => simp [snapshotItems, ih]

@[simp] theorem snapshotEntries_eq_map (entries : List (Value × Value)) :
    snapshotEntries entries = entries.map fun e => (e.1, e.2.snapshot) := by
  induction entries with
  | nil => rfl
  | cons e rest ih => simp [snapshotEntries, ih]

theorem snapshotFaultIn_eq_none {items : List Value} :
    snapshotFaultIn items = none ↔ ∀ v ∈ items, v.snapshotFault = none := by
  induction items with
  | nil => simp [snapshotFaultIn]
  | cons v rest ih => simp [snapshotFaultIn, ih]

theorem snapshotEntriesFault_eq_none {entries : List (Value × Value)} :
    snapshotEntriesFault entries = none ↔ ∀ e ∈ entries, e.2.snapshotFault = none := by
  induction entries with
  | nil => simp [snapshotEntriesFault]
  | cons e rest ih => simp [snapshotEntriesFault, ih]

theorem snapshotElementsFault_eq_none {elements : List Value} :
    snapshotElementsFault elements = none ↔ ∀ v ∈ elements,
      v.snapshotFault = none ∧ v.snapshot.digestFault = none := by
  induction elements with
  | nil => simp [snapshotElementsFault]
  | cons v rest ih => simp [snapshotElementsFault, ih, and_assoc]

theorem snapshotFaultIn_eq_findSome? (items : List Value) :
    snapshotFaultIn items = items.findSome? snapshotFault := by
  induction items with
  | nil => rfl
  | cons v rest ih =>
    rw [snapshotFaultIn, ih, List.findSome?_cons]
    cases v.snapshotFault <;> rfl

theorem snapshotEntriesFault_eq_findSome? (entries : List (Value × Value)) :
    snapshotEntriesFault entries = entries.findSome? fun e => e.2.snapshotFault := by
  induction entries with
  | nil => rfl
  | cons e rest ih =>
    rw [snapshotEntriesFault, ih, List.findSome?_cons]
    cases e.2.snapshotFault <;> rfl

def snapshot? (v : Value) : Except Fault Value :=
  match v.snapshotFault with
  | some fault => .error fault
  | none => .ok v.snapshot

end RecordLiteral.Value
