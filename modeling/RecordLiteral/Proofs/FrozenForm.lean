import RecordLiteral.Proofs.Hashing

/-! # How fine frozen forms are

A frozen form is read back. A tuple stands for a sequence, and a frozen set of pairs for a mapping,
whose keys are in it as they were and whose items are in it frozen; no leaf is like either of them.
So two values with equal frozen forms are equal by deep equality, but for two things that freezing
does not show: that a number is a boolean, and that a set is not a mapping.
-/
namespace RecordLiteral.Value

/-- The shapes of frozen forms. -/
inductive Frozen : Value → Prop
  | leaf {l : Leaf} : Frozen (.leaf l)
  | tuple {items : List Value} (h : ∀ v ∈ items, Frozen v) : Frozen (.seq (.tuple none) items)
  | set {elements : List Value} : Frozen (.set .frozen elements)
  | record {table : String} {id : Value} : Frozen (.record table id)

/-- Neither a boolean nor a set, down to the items of sequences and mappings. Keys may be either,
and hold either, as may the ids of records. -/
inductive Distinctive : Value → Prop
  | leaf {l : Leaf} (h : ∀ b, l ≠ .bool b) : Distinctive (.leaf l)
  | seq {kind : SeqKind} {items : List Value} (h : ∀ v ∈ items, Distinctive v) :
    Distinctive (.seq kind items)
  | mapping {kind : MapKind} {entries : List (Value × Value)} (h : ∀ e ∈ entries, Distinctive e.2) :
    Distinctive (.mapping kind entries)
  | record {table : String} {id : Value} : Distinctive (.record table id)

@[simp] theorem distinctive_leaf {l : Leaf} : Distinctive (.leaf l) ↔ ∀ b, l ≠ .bool b :=
  ⟨fun | .leaf h => h, .leaf⟩

variable {a b : Value}

theorem frozen_freeze (v : Value) : Frozen v.freeze := by
  induction v using inductionOn with
  | leaf l => exact .leaf
  | seq kind items ih =>
    rw [freeze, freezeItems_eq_map]
    exact .tuple (List.forall_mem_map.mpr ih)
  | mapping kind entries ih => exact .set
  | set kind elements ih => exact .set
  | record table id ih => exact .record

/-- Frozen values are equal to containers just when they have one plain form, whether or not they
can be digested. -/
theorem Frozen.itemEquals_iff (ha : WellFormed a) (hb : WellFormed b) (hfa : Frozen a) (hfb : Frozen b) :
    itemEquals a b = .equal ↔ a.plainForm = b.plainForm := by
  induction a, b using alignedInduction with
  | leaf a b => exact itemEquals_leaf_eq_equal
  | seq j k xs ys ih =>
    cases hfa with | tuple hfx =>
    cases hfb with | tuple hfy =>
    have hx := wellFormed_seq.mp ha
    have hy := wellFormed_seq.mp hb
    apply itemEquals_tuple_eq_equal
    intro x hx' y hy'
    have part := ih x (List.mem_append_left _ hx') y (List.mem_append_right _ hy')
    exact part (hx x hx') (hy y hy') (hfx x hx') (hfy y hy')
  | mapping j k xs ys ih => cases hfa
  | set j k xs ys ih =>
    cases hfa
    cases hfb
    exact (equal_iff_forms _ _ ha hb).1 digestible_frozen digestible_frozen
  | record t u i j ih =>
    obtain ⟨hwi, -, -⟩ := wellFormed_record.mp ha
    obtain ⟨hwj, -, -⟩ := wellFormed_record.mp hb
    rw [itemEquals_record, plainForm, plainForm, Form.record.injEq, ← hwi.deepEquals_iff hwj]
    split <;> simp [*]
  | apart a b h =>
    rw [itemEquals_of_not_aligned h]
    simp only [reduceCtorEq, false_iff]
    exact fun heq => h (aligned_of_plainForm_eq heq)

/-- Frozen forms are equal just when the forms freeze to one. -/
theorem WellFormed.freeze_itemEquals_iff (ha : WellFormed a) (hb : WellFormed b)
    (hfa : a.freezeFault = none) (hfb : b.freezeFault = none) :
    itemEquals a.freeze b.freeze = .equal ↔ a.form.frozen = b.form.frozen := by
  have sa := ha.frozenAs_of_freezeFault hfa
  have sb := hb.frozenAs_of_freezeFault hfb
  rw [Frozen.itemEquals_iff sa.wellFormed sb.wellFormed (frozen_freeze a) (frozen_freeze b),
    sa.plainForm_eq, sb.plainForm_eq]

section Distinctive

/-- Freezing shows the kind of a value, but that a mapping is taken for a set. -/
theorem frozen_form_kind (v : Value) :
    v.form.frozen.kind = if v.kind = .mapping then .set else v.kind := by
  cases v with
  | leaf l =>
    rcases form_leaf l with ⟨b, rfl⟩ | ⟨-, h⟩
    · rfl
    · rw [h, l.frozen_form, l.form_kind]
      rfl
  | _ => rfl

theorem Distinctive.kind_ne_set (h : Distinctive a) : a.kind ≠ .set := by
  cases h <;> simp [kind]

theorem Distinctive.aligned (ha : Distinctive a) (hb : Distinctive b)
    (h : a.form.frozen = b.form.frozen) : Aligned a b := by
  have hka := ha.kind_ne_set
  have hkb := hb.kind_ne_set
  have hkind := congrArg Form.kind h
  rw [frozen_form_kind, frozen_form_kind] at hkind
  apply aligned_of_kind_eq
  split at hkind <;> split at hkind <;> simp_all

/-- The pairs that the entries of a mapping freeze to. -/
theorem frozen_mapping_eq_iff {j k : MapKind} {xs ys : List (Value × Value)} :
    (Value.mapping j xs).form.frozen = (Value.mapping k ys).form.frozen ↔
      (xs.map fun e => Form.seq [e.1.plainForm, e.2.form.frozen]).Perm
        (ys.map fun e => Form.seq [e.1.plainForm, e.2.form.frozen]) := by
  have hpairs : ∀ entries : List (Value × Value),
      ((arranged (entryForms entries)).map fun e => Form.seq [e.1, e.2.frozen]).Perm
        (entries.map fun e => Form.seq [e.1.plainForm, e.2.form.frozen]) := by
    intro entries
    refine ((arranged_perm _).map _).trans (.of_eq ?_)
    rw [entryForms_eq_map, List.map_map]
    rfl
  simp only [form, Form.frozen, Form.frozenEntries_eq_map, Form.set.injEq, arranged_eq_iff]
  constructor
  · intro h
    exact (hpairs xs).symm.trans (h.trans (hpairs ys))
  · intro h
    exact (hpairs xs).trans (h.trans (hpairs ys).symm)

/-- The form is known from what it freezes to. -/
theorem Distinctive.form_eq (ha : Distinctive a) (hb : Distinctive b)
    (h : a.form.frozen = b.form.frozen) : a.form = b.form := by
  induction a using inductionOn generalizing b with
  | leaf l =>
    cases ha.aligned hb h with | leaf _ m =>
    cases ha with | leaf hl =>
    cases hb with | leaf hm =>
    obtain ⟨x, rfl⟩ | ⟨-, hfl⟩ := form_leaf l
    · exact absurd rfl (hl x)
    · obtain ⟨y, rfl⟩ | ⟨-, hfm⟩ := form_leaf m
      · exact absurd rfl (hm y)
      · rw [hfl, hfm, l.frozen_form, m.frozen_form] at h
        rw [hfl, hfm, h]
  | seq kind items ih =>
    cases ha.aligned hb h with | seq _ k _ others =>
    cases ha with | seq hx =>
    cases hb with | seq hy =>
    simp only [form, Form.frozen, forms_eq_map, Form.frozenParts_eq_map, List.map_map, Form.seq.injEq] at h ⊢
    exact map_eq_map_of_imp (fun x hx' y hy' => ih x hx' (hx x hx') (hy y hy')) h
  | mapping kind entries ih =>
    cases ha.aligned hb h with | mapping _ k _ others =>
    cases ha with | mapping hx =>
    cases hb with | mapping hy =>
    have hpairs := frozen_mapping_eq_iff.mp h
    simp only [form, entryForms_eq_map, Form.mapping.injEq, arranged_eq_iff]
    refine perm_map_of_imp (fun e he e' he' heq => ?_) hpairs
    -- The key is in the pair as it was, and the item is known from the frozen one.
    simp only [Form.seq.injEq, List.cons.injEq, and_true] at heq
    obtain ⟨hkey, hitem⟩ := heq
    rw [hkey, (ih e he).2 (hx e he) (hy e' he') hitem]
  | set kind elements ih => cases ha
  | record table id ih =>
    cases ha.aligned hb h with | record _ u _ other => exact h

end Distinctive

/-- Ids without booleans and sets, but in keys and in the ids of records, are equal by deep
equality just when their frozen forms are equal. -/
theorem freeze_equal_iff_deepEquals {f g : Value} (ha : WellFormed a) (hb : WellFormed b)
    (hia : a.isIdPart = true) (hda : Distinctive a) (hdb : Distinctive b)
    (hf : a.freeze? = .ok f) (hg : b.freeze? = .ok g) :
    plainEquals f g = .equal ↔ deepEquals a b = .equal := by
  obtain ⟨hfa, rfl⟩ := freeze?_eq_ok.mp hf
  obtain ⟨hfb, rfl⟩ := freeze?_eq_ok.mp hg
  rw [← itemEquals_eq_plainEquals (ident?_freeze hia), ha.freeze_itemEquals_iff hb hfa hfb,
    ha.deepEquals_iff hb]
  exact ⟨hda.form_eq hdb, fun h => by rw [h]⟩

/-- The frozen forms of a list and a tuple, which hold a dictionary and a view of numbers of
different kinds, and bytes that cannot be digested. -/
theorem freeze_equal_iff_deepEquals_nested :
    let entry (v : Value) := (Value.leaf (.text "k"), v)
    let a := Value.seq (.list 1) [.mapping (.dict 2) [entry (.leaf (.int 1))], .leaf (.buffer 3 [97])]
    let b := Value.seq (.tuple none)
      [.mapping (.view none) [entry (.leaf (.decimal (.finite false 10 (-1))))], .leaf (.bytes [97])]
    deepEquals a b = .equal := by
  intro entry a b
  have hmapping : ∀ kind v, WellFormed v → WellFormed (.mapping kind [entry v]) := by
    intro kind v hv
    refine .mapping ⟨?_, List.pairwise_singleton _ _⟩ ?_ ?_
    · simp [entry, Leaf.digestFault, Leaf.isSignaling, Leaf.quantity?]
    · simp [entry]
    · simpa [entry] using hv
  have hitems : ∀ kind v, Distinctive v → Distinctive (.mapping kind [entry v]) := by
    intro kind v hv
    exact .mapping (by simpa [entry] using hv)
  have ha : WellFormed a := wellFormed_seq.mpr (by simp [hmapping])
  have hb : WellFormed b := wellFormed_seq.mpr (by simp [hmapping])
  have hda : Distinctive a := .seq (by simp [hitems])
  have hdb : Distinctive b := .seq (by simp [hitems])
  refine (freeze_equal_iff_deepEquals ha hb rfl hda hdb rfl rfl).mp ?_
  decide +kernel

/-- Freezing does not show that a number is a boolean. -/
example : plainEquals (Value.seq (.list 0) [.leaf (.bool true)]).freeze
      (Value.seq (.list 1) [.leaf (.int 1)]).freeze = .equal ∧
    deepEquals (.seq (.list 0) [.leaf (.bool true)]) (.seq (.list 1) [.leaf (.int 1)]) = .unequal := by
  decide +kernel

end RecordLiteral.Value
