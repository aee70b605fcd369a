import RecordLiteral.Value

/-! # Digests

A number for each value, the same for values that compare equal, by which dictionaries
and sets find candidates. A record is digested through the frozen form of its id, in
which sequences are tuples and mappings are sets of pairs; `frozenDigest` computes
that digest without building the form.
-/
namespace RecordLiteral

namespace Digest

def modulus : Nat := 0x7fffffff

def mix (digest part : Nat) : Nat := (digest * 1000003 + part + 97) % modulus

/-- Parts whose order counts; the tag tells the kinds of things apart. -/
def ordered (tag : Nat) (parts : List Nat) : Nat := parts.foldl mix tag

def unordered (tag : Nat) (parts : List Nat) : Nat :=
  mix tag ((parts.map fun part => mix part part).foldr (· + ·) 0 % modulus)

def ofInt (n : Int) : Nat := mix n.natAbs (if n < 0 then 1 else 0)

def ofText (s : String) : Nat := ordered 1 (s.toList.map Char.toNat)

/-- The digest of a record, from that of the frozen form of its id. -/
def ofRecord (table : String) (id : Nat) : Nat := ordered 18 [ofText table, id]

end Digest

open Digest

/-- The digest of a leaf is that of its key, so equal leaves have equal digests. -/
def Leaf.Key.digest : Leaf.Key → Nat
  | .null => ordered 2 []
  | .number x => ordered 3 [x.negative.toNat, x.core, ofInt x.twos, ofInt x.fives]
  | .infinite negative => ordered 4 [negative.toNat]
  | .undefined ident => ordered 5 [ident]
  | .text s => ofText s
  | .uuid u => ordered 6 [u.value.toNat]
  | .instant micros => ordered 7 [ofInt micros]
  | .wallClock micros => ordered 8 [ofInt micros]
  | .day ordinal => ordered 9 [ordinal]
  | .bytes data => ordered 10 (data.map UInt8.toNat)
  | .range size => ordered 11 [size]
  | .function name => ordered 12 [ofText name]
  | .object ident => ordered 13 [ident]
  | .rawRecord literal => ordered 14 [ofText literal]

namespace Value

mutual

def digest : Value → Nat
  | .leaf l => l.key.digest
  | .seq _ items => ordered 15 (digests items)
  | .mapping .. => ordered 16 []
  | .set _ elements => unordered 17 (digests elements)
  | .record table id => ofRecord table (frozenDigest id)

def digests : List Value → List Nat
  | [] => []
  | v :: rest => digest v :: digests rest

def frozenDigest : Value → Nat
  | .leaf l => l.key.digest
  | .seq _ items => ordered 15 (frozenDigests items)
  | .mapping _ entries => unordered 17 (frozenEntryDigests entries)
  | .set _ elements => unordered 17 (frozenDigests elements)
  | .record table id => ofRecord table (frozenDigest id)

def frozenDigests : List Value → List Nat
  | [] => []
  | v :: rest => frozenDigest v :: frozenDigests rest

def frozenEntryDigests : List (Value × Value) → List Nat
  | [] => []
  | (key, item) :: rest => ordered 15 [digest key, frozenDigest item] :: frozenEntryDigests rest

end

@[simp] theorem digests_eq_map (items : List Value) : digests items = items.map digest := by
  induction items with
  | nil => rfl
  | cons v rest ih => simp [digests, ih]

@[simp] theorem frozenDigests_eq_map (items : List Value) :
    frozenDigests items = items.map frozenDigest := by
  induction items with
  | nil => rfl
  | cons v rest ih => simp [frozenDigests, ih]

@[simp] theorem frozenEntryDigests_eq_map (entries : List (Value × Value)) :
    frozenEntryDigests entries = entries.map fun e => ordered 15 [e.1.digest, e.2.frozenDigest] := by
  induction entries with
  | nil => rfl
  | cons e rest ih => simp [frozenEntryDigests, ih]

end Value
end RecordLiteral
