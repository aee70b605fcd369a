import Mathlib.Data.Multiset.Basic
import RecordLiteral.Proofs.WellFormed

/-! # Forms

What the two equalities see of a value. Leaves are known by their keys, sequences by
their parts in order, and mappings and sets by their parts in an order that is picked
once for each collection. The form by deep equality tells booleans from numbers; the
plain form, for keys and elements, does not. The digest of a value is a function of its
form.
-/
namespace RecordLiteral

open Digest

/-- One list for all the orders of the same members. -/
noncomputable def arranged {α : Type} (l : List α) : List α := (l : Multiset α).toList

theorem arranged_perm {α : Type} (l : List α) : (arranged l).Perm l :=
  Multiset.coe_eq_coe.mp (Multiset.coe_toList _)

theorem arranged_eq_iff {α : Type} {l m : List α} : arranged l = arranged m ↔ l.Perm m := by
  constructor
  · intro h
    exact (arranged_perm l).symm.trans (h ▸ arranged_perm m)
  · intro h
    rw [arranged, arranged, Multiset.coe_eq_coe.mpr h]

theorem perm_iff_subset {α : Type} {l m : List α} (hl : l.Nodup) (hlen : l.length = m.length) :
    l.Perm m ↔ l ⊆ m :=
  ⟨fun h => h.subset, fun h => (List.subperm_of_subset hl h).perm_of_length_le hlen.ge⟩

theorem unordered_perm (tag : Nat) {l m : List Nat} (h : l.Perm m) :
    unordered tag l = unordered tag m := by
  rw [unordered, unordered, (h.map _).foldr_eq]

inductive Form
  | key (k : Leaf.Key)
  | truth (b : Bool)
  /-- A number without worth is like nothing but itself. -/
  | undefined (l : Leaf)
  | seq (parts : List Form)
  | mapping (entries : List (Form × Form))
  | set (elements : List Form)
  | record (table : String) (id : Form)

namespace Form

mutual

def digest : Form → Nat
  | .key k => k.digest
  | .truth b => (Leaf.bool b).key.digest
  | .undefined l => l.key.digest
  | .seq parts => ordered 15 (digests parts)
  | .mapping entries => unordered 17 (entryDigests entries)
  | .set elements => unordered 17 (digests elements)
  | .record table id => ofRecord table (digest id)

def digests : List Form → List Nat
  | [] => []
  | f :: rest => digest f :: digests rest

def entryDigests : List (Form × Form) → List Nat
  | [] => []
  | (k, item) :: rest => ordered 15 [digest k, digest item] :: entryDigests rest

end

@[simp] theorem digests_eq_map (parts : List Form) : digests parts = parts.map digest := by
  induction parts with
  | nil => rfl
  | cons f rest ih => simp [digests, ih]

@[simp] theorem entryDigests_eq_map (entries : List (Form × Form)) :
    entryDigests entries = entries.map fun e => ordered 15 [e.1.digest, e.2.digest] := by
  induction entries with
  | nil => rfl
  | cons e rest ih => simp [entryDigests, ih]

end Form

namespace Leaf

def form (l : Leaf) : Form := if l.isUndefined then .undefined l else .key l.key

theorem isUndefined_of_isSignaling {l : Leaf} (h : l.isSignaling = true) : l.isUndefined = true := by
  cases l with
  | float x => cases x <;> simp_all [isSignaling, quantity?, Double.quantity]
  | decimal x =>
    cases x with
    | undefined signaling negative payload ident => rfl
    | finite negative coefficient exponent => simp [isSignaling, quantity?, Decimal.quantity] at h
    | infinite negative => simp [isSignaling, quantity?, Decimal.quantity] at h
  | _ => simp [isSignaling, quantity?] at h

theorem isUndefined_iff_key {l : Leaf} : l.isUndefined = true ↔ ∃ ident, l.key = .undefined ident := by
  cases l with
  | float x =>
    cases x <;> simp [isUndefined, undefinedIdent?, key, Double.quantity, numberKey]
  | decimal x =>
    cases x with
    | undefined signaling negative payload ident =>
      cases signaling <;> simp [isUndefined, undefinedIdent?, key, Decimal.quantity, numberKey]
    | finite negative coefficient exponent =>
      simp [isUndefined, undefinedIdent?, key, Decimal.quantity, numberKey]
    | infinite negative => simp [isUndefined, undefinedIdent?, key, Decimal.quantity, numberKey]
  | datetime t =>
    cases h : t.offset <;> simp [isUndefined, undefinedIdent?, key, datetimeKey, h]
  | _ => simp [isUndefined, undefinedIdent?, key]

theorem ident?_isSome_of_isUndefined {l : Leaf} (h : l.isUndefined = true) :
    l.ident?.isSome = true := by
  cases l <;> simp_all [isUndefined, ident?, undefinedIdent?]

theorem plainEquals_eq_equal {a b : Leaf} :
    a.plainEquals b = .equal ↔ a.isUndefined = false ∧ a.key = b.key := by
  unfold plainEquals
  split
  · rename_i hs
    simp only [reduceCtorEq, false_iff, not_and]
    intro ha hk
    have hb : b.isUndefined = false := by
      rw [← Bool.not_eq_true, isUndefined_iff_key, ← hk, ← isUndefined_iff_key]
      simp [ha]
    have hsa : a.isSignaling = false := by
      rw [← Bool.not_eq_true]
      intro h
      simp [isUndefined_of_isSignaling h] at ha
    have hsb : b.isSignaling = false := by
      rw [← Bool.not_eq_true]
      intro h
      simp [isUndefined_of_isSignaling h] at hb
    simp [hsa, hsb] at hs
  · cases a.isUndefined <;> simp [Verdict.ofBool]

theorem form_digest (l : Leaf) : l.form.digest = l.key.digest := by
  unfold form
  split <;> rfl

theorem form_eq_iff {a b : Leaf} :
    a.form = b.form ↔ ((Value.leaf a).same (.leaf b) = true ∨ a.plainEquals b = .equal) := by
  have hs : (Value.leaf a).same (.leaf b) = true ↔ a.ident?.isSome = true ∧ a = b := by
    simp [Value.same, Value.ident?]
  rw [plainEquals_eq_equal, hs]
  unfold form
  by_cases ha : a.isUndefined = true
  · have hi := ident?_isSome_of_isUndefined ha
    by_cases hb : b.isUndefined = true
    · simp [ha, hb, hi]
    · simp only [ha, hb, if_true, if_false, reduceCtorEq, false_iff, not_or, Bool.false_eq_true,
        false_and, not_false_eq_true, and_true, Bool.true_eq_false]
      rintro ⟨-, rfl⟩
      exact hb ha
  · by_cases hb : b.isUndefined = true
    · have hk : a.key ≠ b.key := by
        intro hk
        rw [isUndefined_iff_key] at ha hb
        exact ha (hk ▸ hb)
      simp only [ha, hb, if_true, if_false, reduceCtorEq, false_iff, not_or, Bool.false_eq_true]
      refine ⟨?_, fun h => hk h.2⟩
      rintro ⟨-, rfl⟩
      exact ha hb
    · simp only [ha, hb, if_false, Form.key.injEq, Bool.false_eq_true]
      refine ⟨fun h => Or.inr ⟨by simp, h⟩, ?_⟩
      rintro (⟨-, rfl⟩ | ⟨-, h⟩)
      · rfl
      · exact h

end Leaf

namespace Value

mutual

/-- The form by deep equality. -/
noncomputable def form : Value → Form
  | .leaf (.bool b) => .truth b
  | .leaf l => l.form
  | .seq _ items => .seq (forms items)
  | .mapping _ entries => .mapping (arranged (entryForms entries))
  | .set _ elements => .set (arranged (plainForms elements))
  | .record table id => .record table (form id)

/-- The form by plain equality. -/
noncomputable def plainForm : Value → Form
  | .leaf l => l.form
  | .seq _ items => .seq (plainForms items)
  | .mapping _ entries => .mapping (arranged (entryForms entries))
  | .set _ elements => .set (arranged (plainForms elements))
  | .record table id => .record table (form id)

noncomputable def forms : List Value → List Form
  | [] => []
  | v :: rest => form v :: forms rest

noncomputable def plainForms : List Value → List Form
  | [] => []
  | v :: rest => plainForm v :: plainForms rest

noncomputable def entryForms : List (Value × Value) → List (Form × Form)
  | [] => []
  | (key, item) :: rest => (plainForm key, form item) :: entryForms rest

end

@[simp] theorem forms_eq_map (items : List Value) : forms items = items.map form := by
  induction items with
  | nil => rfl
  | cons v rest ih => simp [forms, ih]

@[simp] theorem plainForms_eq_map (items : List Value) : plainForms items = items.map plainForm := by
  induction items with
  | nil => rfl
  | cons v rest ih => simp [plainForms, ih]

@[simp] theorem entryForms_eq_map (entries : List (Value × Value)) :
    entryForms entries = entries.map fun e => (e.1.plainForm, e.2.form) := by
  induction entries with
  | nil => rfl
  | cons e rest ih => simp [entryForms, ih]

theorem form_leaf_digest (l : Leaf) : (Value.leaf l).form.digest = l.key.digest := by
  cases l with
  | bool b => rfl
  | _ => exact Leaf.form_digest _

theorem digest_set_form (elements : List Value) :
    (Form.set (arranged (plainForms elements))).digest =
      unordered 17 (elements.map fun v => v.plainForm.digest) := by
  simp only [Form.digest, Form.digests_eq_map, plainForms_eq_map]
  rw [unordered_perm 17 ((arranged_perm _).map Form.digest), List.map_map, Function.comp_def]

theorem digest_mapping_form (entries : List (Value × Value)) :
    (Form.mapping (arranged (entryForms entries))).digest =
      unordered 17 (entries.map fun e => ordered 15 [e.1.plainForm.digest, e.2.form.digest]) := by
  simp only [Form.digest, Form.entryDigests_eq_map, entryForms_eq_map]
  rw [unordered_perm 17 ((arranged_perm _).map _), List.map_map, Function.comp_def]

/-- Frozen or not, a value is digested as its form is. -/
theorem digest_forms (v : Value) (hw : WellFormed v) :
    v.form.digest = v.frozenDigest ∧
      (Digestible v → v.plainForm.digest = v.digest ∧ v.frozenDigest = v.digest) := by
  induction v using inductionOn with
  | leaf l => exact ⟨form_leaf_digest l, fun _ => ⟨l.form_digest, rfl⟩⟩
  | seq kind items ih =>
    have hi := wellFormed_seq.mp hw
    constructor
    · simp only [form, Form.digest, frozenDigest, forms_eq_map, Form.digests_eq_map, List.map_map,
        Function.comp_def, frozenDigests_eq_map]
      rw [List.map_congr_left fun v hv => (ih v hv (hi v hv)).1]
    · intro hd
      obtain ⟨-, hd⟩ := hd.tuple
      simp only [plainForm, Form.digest, digest, frozenDigest, plainForms_eq_map,
        Form.digests_eq_map, List.map_map, Function.comp_def, digests_eq_map, frozenDigests_eq_map]
      constructor
      · rw [List.map_congr_left fun v hv => ((ih v hv (hi v hv)).2 (hd v hv)).1]
      · rw [List.map_congr_left fun v hv => ((ih v hv (hi v hv)).2 (hd v hv)).2]
  | mapping kind entries ih =>
    obtain ⟨apart, hk, hi⟩ := wellFormed_mapping.mp hw
    refine ⟨?_, fun hd => absurd hd not_digestible_mapping⟩
    rw [form, digest_mapping_form, frozenDigest, frozenEntryDigests_eq_map]
    refine congrArg (unordered 17) (List.map_congr_left ?_)
    intro e he
    rw [((ih e he).1 (hk e he)).2 (apart.digestible e he) |>.1, ((ih e he).2 (hi e he)).1]
  | set kind elements ih =>
    obtain ⟨apart, hi⟩ := wellFormed_set.mp hw
    have hm : ∀ v ∈ elements, v.plainForm.digest = v.digest ∧ v.frozenDigest = v.digest :=
      fun v hv => (ih v hv (hi v hv)).2 (apart.digestible v hv)
    have hf : elements.map frozenDigest = elements.map digest :=
      List.map_congr_left fun v hv => (hm v hv).2
    have hp : (elements.map fun v => v.plainForm.digest) = elements.map digest :=
      List.map_congr_left fun v hv => (hm v hv).1
    simp only [form, plainForm, digest_set_form, digest, frozenDigest, digests_eq_map,
      frozenDigests_eq_map, hf, hp, and_self, implies_true]
  | record table id ih =>
    obtain ⟨hw, -, -⟩ := wellFormed_record.mp hw
    simp only [form, plainForm, Form.digest, digest, frozenDigest, (ih hw).1, and_self, implies_true]

theorem WellFormed.digest_plainForm {v : Value} (h : WellFormed v) (hd : Digestible v) :
    v.plainForm.digest = v.digest :=
  ((digest_forms v h).2 hd).1

end Value
end RecordLiteral
