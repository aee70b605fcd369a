import Mathlib.Data.Char
import Mathlib.Data.List.Lex
import Mathlib.Data.List.Nodup
import RecordLiteral.Proofs.Readability

/-! # Entries in the order of their keys

Deep equality does not ask in which order the entries of a mapping are, and a literal keeps
it. Nothing else is in a literal that deep equality does not see: once the entries of every
mapping are in the order of their keys, payloads that are deeply equal have one literal. The
other way round this holds as far as literals can be read back at all.
-/
namespace RecordLiteral.Value

open Literal

variable {a b v : Value}

def keyOrder (e f : Value × Value) : Bool := decide (e.1.display ≤ f.1.display)

mutual

/-- The entries of every mapping in the order of their keys, and all else as it is. -/
def sorted : Value → Value
  | .seq kind items => .seq kind (sortedItems items)
  | .mapping kind entries => .mapping kind ((sortedEntries entries).mergeSort keyOrder)
  | v => v

def sortedItems : List Value → List Value
  | [] => []
  | v :: rest => sorted v :: sortedItems rest

def sortedEntries : List (Value × Value) → List (Value × Value)
  | [] => []
  | (key, item) :: rest => (key, sorted item) :: sortedEntries rest

end

@[simp] theorem sortedItems_eq_map (items : List Value) : sortedItems items = items.map sorted := by
  induction items with
  | nil => rfl
  | cons v rest ih => simp [sortedItems, ih]

@[simp] theorem sortedEntries_eq_map (entries : List (Value × Value)) :
    sortedEntries entries = entries.map fun e => (e.1, e.2.sorted) := by
  induction entries with
  | nil => rfl
  | cons e rest ih => simp [sortedEntries, ih]

/-- Sorting only moves entries about. -/
theorem sorted_mapping_perm (entries : List (Value × Value)) :
    ((sortedEntries entries).mergeSort keyOrder).Perm (entries.map fun e => (e.1, e.2.sorted)) := by
  rw [← sortedEntries_eq_map]
  exact List.mergeSort_perm _ _

theorem form_sorted (v : Value) : v.sorted.form = v.form := by
  induction v using inductionOn with
  | seq kind items ih =>
    simp only [sorted, form, sortedItems_eq_map, forms_eq_map, List.map_map]
    exact congrArg Form.seq (List.map_congr_left ih)
  | mapping kind entries ih =>
    simp only [sorted, form, Form.mapping.injEq, arranged_eq_iff, entryForms_eq_map]
    refine ((sorted_mapping_perm entries).map _).trans (List.Perm.of_eq ?_)
    rw [List.map_map]
    exact List.map_congr_left fun e he => by rw [Function.comp_apply, (ih e he).2]
  | _ => rfl

theorem mem_objectKeys_sorted (v : Value) (s : List Char) :
    s ∈ v.sorted.objectKeys ↔ s ∈ v.objectKeys := by
  induction v using inductionOn with
  | seq kind items ih =>
    simp only [sorted, objectKeys, sortedItems_eq_map, mem_objectKeysIn, List.mem_map,
      exists_exists_and_eq_and]
    exact exists_congr fun v => and_congr_right fun hv => ih v hv
  | mapping kind entries ih =>
    simp only [sorted, objectKeys, mem_objectKeysInEntries, (sorted_mapping_perm entries).mem_iff,
      List.mem_map, exists_exists_and_eq_and]
    exact exists_congr fun e => and_congr_right fun he => or_congr_right (ih e he).2
  | _ => rfl

theorem Clear.sorted (h : Clear a b) : Clear a.sorted b.sorted := by
  intro s hs t ht
  exact h s ((mem_objectKeys_sorted a s).mp hs) t ((mem_objectKeys_sorted b t).mp ht)

theorem KeysApart.perm {xs ys : List (Value × Value)} (h : KeysApart xs)
    (hw : ∀ e ∈ xs, WellFormed e.1) (hp : (xs.map Prod.fst).Perm (ys.map Prod.fst)) : KeysApart ys := by
  have among : ∀ f ∈ ys, ∃ e ∈ xs, e.1 = f.1 := fun f hf =>
    List.mem_map.mp (hp.symm.subset (List.mem_map_of_mem hf))
  have hwy : ∀ f ∈ ys, WellFormed f.1 := by
    intro f hf
    obtain ⟨e, he, hef⟩ := among f hf
    exact hef ▸ hw e he
  obtain ⟨hd, hnodup⟩ := (keysApart_iff hw).mp h
  refine (keysApart_iff hwy).mpr ⟨?_, ?_⟩
  · intro f hf
    obtain ⟨e, he, hef⟩ := among f hf
    exact hef ▸ hd e he
  · have hforms := (hp.map plainForm).nodup_iff
    rw [List.map_map, List.map_map] at hforms
    exact hforms.mp hnodup

theorem Payload.sorted (h : Payload v) : Payload v.sorted := by
  induction h with
  | leaf h => exact .leaf h
  | seq h ih =>
    rw [Value.sorted, sortedItems_eq_map]
    exact .seq (List.forall_mem_map.mpr ih)
  | @mapping kind entries apart texts items ih =>
    have hp := sorted_mapping_perm entries
    have hkeys : (entries.map Prod.fst).Perm (((sortedEntries entries).mergeSort keyOrder).map Prod.fst) := by
      have := (hp.map Prod.fst).symm
      rwa [List.map_map] at this
    refine .mapping (apart.perm (wellFormed_of_texts texts) hkeys) ?_ ?_
    · intro e he
      obtain ⟨f, hf, rfl⟩ := List.mem_map.mp (hp.subset he)
      exact texts f hf
    · intro e he
      obtain ⟨f, hf, rfl⟩ := List.mem_map.mp (hp.subset he)
      exact ih f hf

section Pairs
variable {α : Type} {xs ys : List (List Char × α)}

def pairOrder (p q : List Char × α) : Bool := decide (p.1 ≤ q.1)

theorem pairwise_mergeSort_pairOrder (xs : List (List Char × α)) :
    (xs.mergeSort pairOrder).Pairwise fun p q => p.1 ≤ q.1 := by
  have trans : ∀ p q r : List Char × α, pairOrder p q → pairOrder q r → pairOrder p r := by
    intro p q r hpq hqr
    exact decide_eq_true ((of_decide_eq_true hpq).trans (of_decide_eq_true hqr))
  have total : ∀ p q : List Char × α, pairOrder p q || pairOrder q p := by
    intro p q
    simpa [pairOrder] using le_total p.1 q.1
  exact (List.pairwise_mergeSort trans total xs).imp of_decide_eq_true

/-- Pairs under different keys can be put into the order of the keys in one way only. -/
theorem mergeSort_pairOrder_eq (hp : xs.Perm ys) (hk : (xs.map Prod.fst).Nodup) :
    xs.mergeSort pairOrder = ys.mergeSort pairOrder := by
  have hx := List.mergeSort_perm xs pairOrder
  have hy := List.mergeSort_perm ys pairOrder
  refine List.Perm.eq_of_pairwise ?_ (pairwise_mergeSort_pairOrder xs)
    (pairwise_mergeSort_pairOrder ys) (hx.trans (hp.trans hy.symm))
  intro p q hpx hqy hpq hqp
  have hqx := hp.symm.subset (hy.subset hqy)
  exact List.inj_on_of_nodup_map hk (hx.subset hpx) hqx (le_antisymm hpq hqp)

end Pairs

/-- The entries as an object shows them, not yet in order. -/
def sortedPairs (entries : List (Value × Value)) : List (List Char × List Char) :=
  entries.map fun e => (e.1.display, e.2.sorted.literal)

theorem literal_sorted_mapping (kind : MapKind) (entries : List (Value × Value)) :
    (Value.mapping kind entries).sorted.literal =
      enclosed '\x7b' '\x7d' (((sortedPairs entries).mergeSort pairOrder).map entry) := by
  have hpairs : ((sortedEntries entries).mergeSort keyOrder).map (fun e => (e.1.display, e.2.literal)) =
      (sortedPairs entries).mergeSort pairOrder := by
    rw [List.map_mergeSort (r := keyOrder) (s := pairOrder) fun _ _ _ _ => rfl, sortedEntries_eq_map,
      List.map_map]
    rfl
  rw [Value.sorted, literal_mapping, ← hpairs, List.map_map]
  rfl

theorem literal_sorted_eq (a b : Value) (ha : Payload a) (hb : Payload b) (h : a.form = b.form) :
    a.sorted.literal = b.sorted.literal := by
  induction a, b using alignedInduction with
  | leaf a b =>
    cases ha with
    | leaf ha =>
      cases hb with
      | leaf hb => rw [Leaf.eq_of_form_eq ha hb h]
  | seq j k xs ys ih =>
    cases ha with
    | seq ha =>
      cases hb with
      | seq hb =>
        rw [form, form, forms_eq_map, forms_eq_map, Form.seq.injEq] at h
        have hitems := map_eq_map_of_imp (fun x hx y hy => ih x (List.mem_append_left _ hx) y
          (List.mem_append_right _ hy) (ha x hx) (hb y hy)) h
        simp only [sorted, sortedItems_eq_map, literal_seq, List.map_map]
        exact congrArg _ hitems
  | mapping j k xs ys ih =>
    cases ha with
    | mapping apartx textsx hx =>
      cases hb with
      | mapping aparty textsy hy =>
        rw [form, form, Form.mapping.injEq, arranged_eq_iff, entryForms_eq_map, entryForms_eq_map] at h
        have hpairs : (sortedPairs xs).Perm (sortedPairs ys) := by
          refine perm_map_of_imp ?_ h
          intro e he f hf hef
          obtain ⟨hkeys, hitems⟩ := Prod.mk.inj hef
          have item := (ih e (List.mem_append_left _ he) f (List.mem_append_right _ hf)).2
          rw [(plainForm_eq_iff_display_eq (textsx e he) (textsy f hf)).mp hkeys,
            item (hx e he) (hy f hf) hitems]
        have hkeys : ((sortedPairs xs).map Prod.fst).Nodup := by
          rw [sortedPairs, List.map_map]
          exact displays_nodup apartx textsx
        rw [literal_sorted_mapping, literal_sorted_mapping, mergeSort_pairOrder_eq hpairs hkeys]
  | set j k xs ys ih => cases ha
  | record t u i j ih => cases ha
  | apart a b hn => exact absurd (aligned_of_form_eq h) hn

/-- Sorting a payload changes nothing but the order of its entries. Once they are sorted, payloads
that are deeply equal have one literal; where no key of one runs into a key of the other, only
they have. -/
theorem Payload.literal_sorted_of_deepEquals (ha : Payload a) (hb : Payload b) :
    deepEquals a.sorted a = .equal ∧
      (deepEquals a b = .equal → a.sorted.literal = b.sorted.literal) ∧
      (Clear a b → a.sorted.literal = b.sorted.literal → deepEquals a b = .equal) := by
  have equal_iff (x y : Value) (hx : Payload x) (hy : Payload y) :
      deepEquals x y = .equal ↔ x.form = y.form := hx.wellFormed.deepEquals_iff hy.wellFormed
  refine ⟨?_, ?_, ?_⟩
  · exact (equal_iff _ _ ha.sorted ha).mpr (form_sorted a)
  · intro h
    exact literal_sorted_eq a b ha hb ((equal_iff a b ha hb).mp h)
  · intro hc h
    have hforms := ha.sorted.form_eq_of_literal_eq hb.sorted hc.sorted h
    rw [form_sorted, form_sorted] at hforms
    exact (equal_iff a b ha hb).mpr hforms

/-- Objects in an array in an object, in another order at both levels. -/
theorem Payload.literal_sorted_of_deepEquals_nested :
    let null := Value.leaf .null
    let one := Value.leaf (.int 1)
    let inner := Value.mapping (.dict 2) [(.leaf (.text "z"), null), (.leaf (.text "⟩"), one)]
    let other := Value.mapping (.view none) [(.leaf (.text "⟩"), one), (.leaf (.text "z"), null)]
    let a := Value.mapping (.dict 0)
      [(.leaf (.text "b: 1"), .seq (.list 1) [inner]), (.leaf (.text "10"), one)]
    let b := Value.mapping (.ordered 3)
      [(.leaf (.text "10"), one), (.leaf (.text "b: 1"), .seq (.tuple none) [other])]
    deepEquals a b = .equal ∧ a.literal ≠ b.literal ∧ a.sorted.literal = b.sorted.literal := by
  intro null one inner other a b
  have hnull : Payload null := .leaf rfl
  have hone : Payload one := .leaf rfl
  have hinner : Payload inner :=
    payload_mapping (.dict 2) [("z", null), ("⟩", one)] (by simp) (by simp [hnull, hone])
  have hother : Payload other :=
    payload_mapping (.view none) [("⟩", one), ("z", null)] (by simp) (by simp [hnull, hone])
  have hrow : ∀ {kind v}, Payload v → Payload (.seq kind [v]) := fun hv =>
    .seq (List.forall_mem_singleton.mpr hv)
  have ha : Payload a :=
    payload_mapping (.dict 0) [("b: 1", .seq (.list 1) [inner]), ("10", one)] (by simp)
      (by simp [hrow hinner, hone])
  have hb : Payload b :=
    payload_mapping (.ordered 3) [("10", one), ("b: 1", .seq (.tuple none) [other])] (by simp)
      (by simp [hrow hother, hone])
  have hab : deepEquals a b = .equal := by decide +kernel
  exact ⟨hab, by decide +kernel, (Payload.literal_sorted_of_deepEquals ha hb).2.1 hab⟩

end RecordLiteral.Value
