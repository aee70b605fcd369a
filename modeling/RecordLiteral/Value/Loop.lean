import RecordLiteral.Value.Equality

/-! # Containers that hold themselves

A container may be put into itself, directly or inside others. Its value is written
down with the inner occurrence cut off: a leaf stands there that has the identity of
the container met again. A part that is taken out of a container gets the container
back where it was cut off, and is then cut in its own turn, so that every value on its
own is complete, and all occurrences of one object are written alike.

Only what is changed in place closes a circle, so nothing is to be looked for in sets,
records and keys.
-/
namespace RecordLiteral.Value

mutual

def reopen (ident : Ident) (container : Value) : Value → Value
  | .leaf (.again shape i) => if i = ident then container else .leaf (.again shape i)
  | .seq kind items => .seq kind (reopenItems ident container items)
  | .mapping kind entries => .mapping kind (reopenEntries ident container entries)
  | v => v

def reopenItems (ident : Ident) (container : Value) : List Value → List Value
  | [] => []
  | v :: rest => reopen ident container v :: reopenItems ident container rest

def reopenEntries (ident : Ident) (container : Value) :
    List (Value × Value) → List (Value × Value)
  | [] => []
  | (key, item) :: rest =>
    (key, reopen ident container item) :: reopenEntries ident container rest

end

@[simp] theorem reopenItems_eq_map (ident : Ident) (container : Value) (items : List Value) :
    reopenItems ident container items = items.map (reopen ident container) := by
  induction items with
  | nil => rfl
  | cons v rest ih => simp [reopenItems, ih]

@[simp] theorem reopenEntries_eq_map (ident : Ident) (container : Value)
    (entries : List (Value × Value)) :
    reopenEntries ident container entries =
      entries.map fun e => (e.1, reopen ident container e.2) := by
  induction entries with
  | nil => rfl
  | cons e rest ih => simp [reopenEntries, ih]

/-- What stands for a container that is one of those around it. -/
def again? (shape : Shape) (ident : Option Ident) (around : List Ident) : Option Value :=
  (ident.filter around.contains).map fun i => .leaf (.again shape i)

mutual

/-- Cuts off the containers that are met again inside themselves, given those around. -/
def cut (around : List Ident) : Value → Value
  | .seq kind items =>
    match again? kind.shape kind.ident? around with
    | some v => v
    | none => .seq kind (cutItems (kind.ident?.toList ++ around) items)
  | .mapping kind entries =>
    match again? kind.shape kind.ident? around with
    | some v => v
    | none => .mapping kind (cutEntries (kind.ident?.toList ++ around) entries)
  | v => v

def cutItems (around : List Ident) : List Value → List Value
  | [] => []
  | v :: rest => cut around v :: cutItems around rest

def cutEntries (around : List Ident) : List (Value × Value) → List (Value × Value)
  | [] => []
  | (key, item) :: rest => (key, cut around item) :: cutEntries around rest

end

@[simp] theorem cutItems_eq_map (around : List Ident) (items : List Value) :
    cutItems around items = items.map (cut around) := by
  induction items with
  | nil => rfl
  | cons v rest ih => simp [cutItems, ih]

@[simp] theorem cutEntries_eq_map (around : List Ident) (entries : List (Value × Value)) :
    cutEntries around entries = entries.map fun e => (e.1, e.2.cut around) := by
  induction entries with
  | nil => rfl
  | cons e rest ih => simp [cutEntries, ih]

/-- A part of a container as a value on its own. -/
def part (container item : Value) : Value :=
  match container.ident? with
  | some ident => (reopen ident container item).cut []
  | none => item

mutual

def isCircular : Value → Bool
  | .leaf (.again ..) => true
  | .seq _ items => isCircularAmong items
  | .mapping _ entries => isCircularAmongEntries entries
  | _ => false

def isCircularAmong : List Value → Bool
  | [] => false
  | v :: rest => isCircular v || isCircularAmong rest

def isCircularAmongEntries : List (Value × Value) → Bool
  | [] => false
  | (_, item) :: rest => isCircular item || isCircularAmongEntries rest

end

theorem isCircularAmong_eq_false {items : List Value} :
    isCircularAmong items = false ↔ ∀ v ∈ items, v.isCircular = false := by
  induction items with
  | nil => simp [isCircularAmong]
  | cons v rest ih => simp [isCircularAmong, ih]

theorem isCircularAmongEntries_eq_false {entries : List (Value × Value)} :
    isCircularAmongEntries entries = false ↔ ∀ e ∈ entries, e.2.isCircular = false := by
  induction entries with
  | nil => simp [isCircularAmongEntries]
  | cons e rest ih => simp [isCircularAmongEntries, ih]

mutual

def containers : Value → Nat
  | .seq _ items => containersIn items + 1
  | .mapping _ entries => containersInEntries entries + 1
  | _ => 0

def containersIn : List Value → Nat
  | [] => 0
  | v :: rest => containers v + containersIn rest

def containersInEntries : List (Value × Value) → Nat
  | [] => 0
  | (_, item) :: rest => containers item + containersInEntries rest

end

/-- Whether a comparison that came to these two parts would go on. -/
def agree (a b : Value) : Bool := itemEquals a b = .equal || deepEquals a b = .equal

def alignItems (align : Value → Value → Value × Value) :
    List Value → List Value → List Value × List Value
  | x :: xs, y :: ys =>
    let (x, y) := align x y
    if agree x y then
      let (xs, ys) := alignItems align xs ys
      (x :: xs, y :: ys)
    else (x :: xs, y :: ys)
  | xs, ys => (xs, ys)

def alignEntries (align : Value → Value → Value × Value) :
    List (Value × Value) → List (Value × Value) →
      List (Value × Value) × List (Value × Value)
  | (key, x) :: xs, ys =>
    match ys.findIdx? fun entry => isFor entry.1 key = .equal with
    | some i =>
      let (x, y) := align x (ys[i]?.getD (key, x)).2
      let ys := ys.modify i fun entry => (entry.1, y)
      if agree x y then
        let (xs, ys) := alignEntries align xs ys
        ((key, x) :: xs, ys)
      else ((key, x) :: xs, ys)
    | none => ((key, x) :: xs, ys)
  | [], ys => ([], ys)

/-- Puts containers back where they were cut off, as far as a comparison of the two values
gets, and at most to a certain depth. -/
def alignTo : Nat → Value → Value → Value × Value
  | 0, a, b => (a, b)
  | depth + 1, a, b =>
    if a.same b then (a, b) else
    match a, b with
    | .seq j xs, .seq k ys =>
      let (xs, ys) := alignItems (alignTo depth) (xs.map (part a)) (ys.map (part b))
      (.seq j xs, .seq k ys)
    | .mapping j xs, .mapping k ys =>
      let complete (v : Value) (entries : List (Value × Value)) :=
        entries.map fun entry => (entry.1, part v entry.2)
      let (xs, ys) := alignEntries (alignTo depth) (complete a xs) (complete b ys)
      (.mapping j xs, .mapping k ys)
    | a, b => (a, b)

/-- Two values with so much of each that they can be compared. A comparison that gets to
the same two containers again would never end, so it is not deeper than there are pairs
of them. -/
def align (a b : Value) : Value × Value :=
  if a.isCircular || b.isCircular then alignTo (a.containers * b.containers) a b else (a, b)

end RecordLiteral.Value
