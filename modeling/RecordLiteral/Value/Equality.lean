import RecordLiteral.Value.Digest

/-! # Equality

Two comparisons, each calling the other. Plain equality takes numbers by worth and
separates lists from tuples. Deep equality takes lists and tuples alike, never
takes a boolean for a number, ignores the order of entries, and leaves all that is
neither a sequence nor a mapping to plain equality. Plain equality of records is deep
equality of their ids. Keys and set elements are always found by plain equality.

A comparison runs from left to right and stops at the first part that decides it, so
that a signaling number which is never reached does no harm.
-/
namespace RecordLiteral

inductive Verdict
  | equal
  | unequal
  | signals
  deriving DecidableEq

namespace Verdict

def ofBool (b : Bool) : Verdict := if b then .equal else .unequal

@[macro_inline] def andThen (first second : Verdict) : Verdict :=
  match first with
  | .equal => second
  | .unequal => .unequal
  | .signals => .signals

@[macro_inline] def orElse (first second : Verdict) : Verdict :=
  match first with
  | .equal => .equal
  | .unequal => second
  | .signals => .signals

end Verdict

def Leaf.plainEquals (a b : Leaf) : Verdict :=
  if (a.isSignaling && b.isNumber) || (a.isNumber && b.isSignaling) then .signals
  else if a.isUndefined then .unequal
  else .ofBool (decide (a.key = b.key))

/-- Which of two mappings is gone through when they are compared: an ordered one
before others, and a view after others. -/
def MapKind.leads : MapKind → MapKind → Bool
  | .ordered _, _ => true
  | _, .ordered _ => false
  | .dict _, .dict _ => true
  | .view _, .dict _ => true
  | _, .view _ => false

def MapKind.isOrdered : MapKind → Bool
  | .ordered _ => true
  | _ => false

namespace Value

mutual

def plainEquals : Value → Value → Verdict
  | .leaf a, .leaf b => a.plainEquals b
  | .seq (.tuple _) xs, .seq (.tuple _) ys => plainItems xs ys
  | .seq (.list _) xs, .seq (.list _) ys =>
    if xs.length = ys.length then plainItems xs ys else .unequal
  | .mapping j xs, .mapping k ys =>
    if xs.length ≠ ys.length then .unequal
    else if j.leads k then
      (plainEntries xs ys).andThen (if j.isOrdered && k.isOrdered then plainKeys xs ys else .equal)
    else plainEntries ys xs
  | .set _ xs, .set _ ys => if xs.length = ys.length then allAmong xs ys else .unequal
  | .record t i, .record u j => if t = u then deepEquals i j else .unequal
  | _, _ => .unequal
termination_by a b => 2 * (sizeOf a + sizeOf b)

/-- Plain equality as containers ask for it: an object is always equal to itself. -/
def itemEquals (a b : Value) : Verdict := if a.same b then .equal else plainEquals a b
termination_by 2 * (sizeOf a + sizeOf b) + 1

/-- Item by item; lengths count only at the end. -/
def plainItems : List Value → List Value → Verdict
  | x :: xs, y :: ys => (itemEquals x y).andThen (plainItems xs ys)
  | [], [] => .equal
  | _, _ => .unequal
termination_by xs ys => 2 * (sizeOf xs + sizeOf ys)

/-- Whether a stored key or element is the one looked for. -/
def isFor (stored sought : Value) : Verdict :=
  if stored.digest = sought.digest then itemEquals stored sought else .unequal
termination_by 2 * (sizeOf stored + sizeOf sought) + 2

def plainEntries : List (Value × Value) → List (Value × Value) → Verdict
  | [], _ => .equal
  | (key, item) :: rest, others => (plainAt key item others).andThen (plainEntries rest others)
termination_by xs ys => 2 * (sizeOf xs + sizeOf ys)

def plainAt (key item : Value) : List (Value × Value) → Verdict
  | [] => .unequal
  | (stored, other) :: rest =>
    match isFor stored key with
    | .equal => itemEquals item other
    | .unequal => plainAt key item rest
    | .signals => .signals
termination_by ys => 2 * (sizeOf key + sizeOf item + sizeOf ys)

def plainKeys : List (Value × Value) → List (Value × Value) → Verdict
  | (j, _) :: xs, (k, _) :: ys => (itemEquals j k).andThen (plainKeys xs ys)
  | [], [] => .equal
  | _, _ => .unequal
termination_by xs ys => 2 * (sizeOf xs + sizeOf ys)

def allAmong : List Value → List Value → Verdict
  | [], _ => .equal
  | x :: xs, ys => (isAmong x ys).andThen (allAmong xs ys)
termination_by xs ys => 2 * (sizeOf xs + sizeOf ys)

def isAmong (v : Value) : List Value → Verdict
  | [] => .unequal
  | stored :: rest => (isFor stored v).orElse (isAmong v rest)
termination_by elements => 2 * (sizeOf v + sizeOf elements) + 1

def deepEquals (a b : Value) : Verdict :=
  if a.same b then .equal else
  match a, b with
  | .leaf (.bool x), .leaf (.bool y) => .ofBool (x == y)
  | .leaf (.bool _), _ | _, .leaf (.bool _) => .unequal
  | .mapping _ xs, .mapping _ ys =>
    if xs.length = ys.length then deepEntries xs ys else .unequal
  | .seq _ xs, .seq _ ys => if xs.length = ys.length then deepItems xs ys else .unequal
  | a, b => plainEquals a b
termination_by 2 * (sizeOf a + sizeOf b) + 1

def deepItems : List Value → List Value → Verdict
  | x :: xs, y :: ys => (deepEquals x y).andThen (deepItems xs ys)
  | _, _ => .equal
termination_by xs ys => 2 * (sizeOf xs + sizeOf ys)

def deepEntries : List (Value × Value) → List (Value × Value) → Verdict
  | [], _ => .equal
  | (key, item) :: rest, others => (deepAt key item others).andThen (deepEntries rest others)
termination_by xs ys => 2 * (sizeOf xs + sizeOf ys)

def deepAt (key item : Value) : List (Value × Value) → Verdict
  | [] => .unequal
  | (stored, other) :: rest =>
    match isFor stored key with
    | .equal => deepEquals item other
    | .unequal => deepAt key item rest
    | .signals => .signals
termination_by ys => 2 * (sizeOf key + sizeOf item + sizeOf ys)

end

end Value
end RecordLiteral
