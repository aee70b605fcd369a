import RecordLiteral.Leaf

/-! # Values

Leaves, sequences, mappings, sets and records, nested to any depth. Mappings keep the
order in which keys came in. Sequences and mappings carry an identity, by which an
object that is changed in place is found wherever it occurs, and by which a container
that holds itself is known. A read-only copy has none: it never holds itself, and
nothing can tell it from an equal copy.
-/
namespace RecordLiteral

inductive SeqKind
  | tuple (ident : Option Ident)
  | list (ident : Ident)
  deriving DecidableEq

/-- A view is read-only. Ordered dictionaries compare with each other by order too. -/
inductive MapKind
  | view (ident : Option Ident)
  | dict (ident : Ident)
  | ordered (ident : Ident)
  deriving DecidableEq

namespace SeqKind

def ident? : SeqKind → Option Ident
  | .tuple ident => ident
  | .list ident => some ident

def shape : SeqKind → Shape
  | .tuple _ => .tuple
  | .list _ => .list

end SeqKind

namespace MapKind

def ident? : MapKind → Option Ident
  | .view ident => ident
  | .dict ident | .ordered ident => some ident

def shape : MapKind → Shape
  | .view _ => .view
  | .dict _ => .dict
  | .ordered _ => .ordered

end MapKind

inductive SetKind
  | mutable
  | frozen
  deriving DecidableEq

inductive Value
  | leaf (l : Leaf)
  | seq (kind : SeqKind) (items : List Value)
  | mapping (kind : MapKind) (entries : List (Value × Value))
  | set (kind : SetKind) (elements : List Value)
  | record (table : String) (id : Value)

instance : Inhabited Value := ⟨.leaf .null⟩

namespace Value

mutual

def decEq : (a b : Value) → Decidable (a = b)
  | .leaf a, .leaf b => decidable_of_iff (a = b) (by simp)
  | .seq j xs, .seq k ys =>
    have := decEqItems xs ys
    decidable_of_iff (j = k ∧ xs = ys) (by simp)
  | .mapping j xs, .mapping k ys =>
    have := decEqEntries xs ys
    decidable_of_iff (j = k ∧ xs = ys) (by simp)
  | .set j xs, .set k ys =>
    have := decEqItems xs ys
    decidable_of_iff (j = k ∧ xs = ys) (by simp)
  | .record t i, .record u j =>
    have := decEq i j
    decidable_of_iff (t = u ∧ i = j) (by simp)
  | .leaf _, .seq .. | .leaf _, .mapping .. | .leaf _, .set .. | .leaf _, .record ..
  | .seq .., .leaf _ | .seq .., .mapping .. | .seq .., .set .. | .seq .., .record ..
  | .mapping .., .leaf _ | .mapping .., .seq .. | .mapping .., .set .. | .mapping .., .record ..
  | .set .., .leaf _ | .set .., .seq .. | .set .., .mapping .. | .set .., .record ..
  | .record .., .leaf _ | .record .., .seq .. | .record .., .mapping .. | .record .., .set .. =>
    isFalse (by simp)

def decEqItems : (xs ys : List Value) → Decidable (xs = ys)
  | [], [] => isTrue rfl
  | x :: xs, y :: ys =>
    have := decEq x y
    have := decEqItems xs ys
    decidable_of_iff (x = y ∧ xs = ys) (by simp)
  | [], _ :: _ | _ :: _, [] => isFalse (by simp)

def decEqEntries : (xs ys : List (Value × Value)) → Decidable (xs = ys)
  | [], [] => isTrue rfl
  | (j, x) :: xs, (k, y) :: ys =>
    have := decEq j k
    have := decEq x y
    have := decEqEntries xs ys
    decidable_of_iff (j = k ∧ x = y ∧ xs = ys) (by simp [and_assoc])
  | [], _ :: _ | _ :: _, [] => isFalse (by simp)

end

instance : DecidableEq Value := decEq

def ident? : Value → Option Ident
  | .leaf l => l.ident?
  | .seq kind _ => kind.ident?
  | .mapping kind _ => kind.ident?
  | .set .. | .record .. => none

/-- Two occurrences of one object. All occurrences of an object have one content, so
a shared identity counts only together with it. -/
def same (a b : Value) : Bool := a.ident?.isSome && decide (a = b)

theorem eq_of_same {a b : Value} (h : a.same b = true) : a = b := by
  simp only [same, Bool.and_eq_true, decide_eq_true_eq] at h
  exact h.2

def typeName : Value → String
  | .leaf l => l.typeName
  | .seq kind _ => kind.shape.typeName
  | .mapping kind _ => kind.shape.typeName
  | .set .mutable _ => "set"
  | .set .frozen _ => "frozenset"
  | .record .. => "RecordId"

def qualifiedTypeName : Value → String
  | .leaf (.decimal _) => "decimal.Decimal"
  | .leaf (.datetime _) => "datetime.datetime"
  | .leaf (.date _) => "datetime.date"
  | .mapping (.ordered _) _ => "collections.OrderedDict"
  | v => v.typeName

def isIdPart : Value → Bool
  | .leaf (.uuid _) | .leaf (.text _) | .leaf (.int _) => true
  | .seq .. | .mapping .. => true
  | _ => false

end Value
end RecordLiteral
