import RecordLiteral.Value.Snapshot

/-! # Well-formed values

What dictionaries, sets and records guarantee of what they hold, at any depth: keys and
set elements can be digested and are told apart, and the id of a record is a read-only
copy of a supported kind.
-/
namespace RecordLiteral.Value

section Size
variable {items : List Value} {entries : List (Value × Value)} {v : Value} {e : Value × Value}

theorem sizeOf_lt_seq (kind : SeqKind) (h : v ∈ items) : sizeOf v < sizeOf (Value.seq kind items) := by
  have := List.sizeOf_lt_of_mem h
  simp only [seq.sizeOf_spec]
  omega

theorem sizeOf_lt_set (kind : SetKind) (h : v ∈ items) : sizeOf v < sizeOf (Value.set kind items) := by
  have := List.sizeOf_lt_of_mem h
  simp only [set.sizeOf_spec]
  omega

theorem sizeOf_entry_lt (kind : MapKind) (h : e ∈ entries) :
    sizeOf e.1 < sizeOf (Value.mapping kind entries) ∧
      sizeOf e.2 < sizeOf (Value.mapping kind entries) := by
  have := List.sizeOf_lt_of_mem h
  obtain ⟨key, item⟩ := e
  simp only [mapping.sizeOf_spec, Prod.mk.sizeOf_spec] at *
  constructor <;> omega

theorem sizeOf_id_lt (table : String) (id : Value) : sizeOf id < sizeOf (Value.record table id) := by
  simp only [record.sizeOf_spec]
  omega

end Size

/-- Induction in which the parts of a container are known by membership. -/
@[elab_as_elim]
theorem inductionOn {motive : Value → Prop} (v : Value)
    (leaf : ∀ l, motive (.leaf l))
    (seq : ∀ kind items, (∀ v ∈ items, motive v) → motive (.seq kind items))
    (mapping : ∀ kind entries, (∀ e ∈ entries, motive e.1 ∧ motive e.2) →
      motive (.mapping kind entries))
    (set : ∀ kind elements, (∀ v ∈ elements, motive v) → motive (.set kind elements))
    (record : ∀ table id, motive id → motive (.record table id)) : motive v := by
  induction h : sizeOf v using Nat.strongRecOn generalizing v with
  | _ n ih =>
    subst h
    have smaller : ∀ w, sizeOf w < sizeOf v → motive w := fun w hw => ih _ hw w rfl
    cases v with
    | leaf l => exact leaf l
    | seq kind items => exact seq kind items fun w hw => smaller w (sizeOf_lt_seq kind hw)
    | mapping kind entries =>
      refine mapping kind entries fun e he => ?_
      obtain ⟨hk, hi⟩ := sizeOf_entry_lt kind he
      exact ⟨smaller _ hk, smaller _ hi⟩
    | set kind elements => exact set kind elements fun w hw => smaller w (sizeOf_lt_set kind hw)
    | record table id => exact record table id (smaller _ (sizeOf_id_lt table id))

/-- What may be a key or an element. -/
def Digestible (v : Value) : Prop := v.digestFault = none

instance (v : Value) : Decidable (Digestible v) := inferInstanceAs (Decidable (v.digestFault = none))

/-- What has a frozen form that can be digested. -/
def Freezable (v : Value) : Prop := v.freezeFault = none ∧ v.frozenDigestFault = none

section Digestible
variable {items : List Value} {entries : List (Value × Value)}

attribute [local simp] digestFault freezeFault frozenDigestFault

@[simp] theorem digestible_leaf {l : Leaf} : Digestible (.leaf l) ↔ l.digestFault = none := by
  simp [Digestible]

@[simp] theorem digestible_tuple {ident : Option Ident} :
    Digestible (.seq (.tuple ident) items) ↔ ∀ v ∈ items, Digestible v := by
  simp [Digestible, digestFaultIn_eq_none]

@[simp] theorem not_digestible_list {ident : Ident} : ¬ Digestible (.seq (.list ident) items) := by
  simp [Digestible]

@[simp] theorem not_digestible_mapping {kind : MapKind} : ¬ Digestible (.mapping kind entries) := by
  simp [Digestible]

@[simp] theorem digestible_frozen : Digestible (.set .frozen items) := by
  simp [Digestible]

@[simp] theorem digestible_record {table : String} {id : Value} :
    Digestible (.record table id) ↔ Freezable id := by
  simp [Digestible, Freezable]

theorem Digestible.tuple {kind : SeqKind} (h : Digestible (.seq kind items)) :
    (∃ ident, kind = .tuple ident) ∧ ∀ v ∈ items, Digestible v := by
  cases kind with
  | tuple ident => exact ⟨⟨ident, rfl⟩, digestible_tuple.mp h⟩
  | list ident => exact absurd h not_digestible_list

theorem freezable_seq {kind : SeqKind} :
    Freezable (.seq kind items) ↔ ∀ v ∈ items, Freezable v := by
  simp only [Freezable, freezeFault, frozenDigestFault, freezeFaultIn_eq_none,
    frozenDigestFaultIn_eq_none]
  exact ⟨fun h v hv => ⟨h.1 v hv, h.2 v hv⟩, fun h => ⟨fun v hv => (h v hv).1, fun v hv => (h v hv).2⟩⟩

theorem freezable_mapping {kind : MapKind} :
    Freezable (.mapping kind entries) ↔ ∀ e ∈ entries, Digestible e.1 ∧ Freezable e.2 := by
  simp [Freezable, Digestible, entriesFault_eq_none]

theorem freezable_set {kind : SetKind} :
    Freezable (.set kind items) ↔ ∀ v ∈ items, Freezable v := by
  simp [Freezable, elementsFault_eq_none]

theorem freezable_record {table : String} {id : Value} :
    Freezable (.record table id) ↔ Freezable id := by
  simp [Freezable]

theorem digestFault_freeze (v : Value) : v.freeze.digestFault = v.frozenDigestFault := by
  induction v using inductionOn with
  | leaf l => rfl
  | seq kind items ih =>
    simp only [freeze, freezeItems_eq_map, digestFault, frozenDigestFault]
    induction items with
    | nil => rfl
    | cons v rest ihr =>
      simp only [List.map_cons, digestFaultIn, frozenDigestFaultIn, ih v List.mem_cons_self]
      rw [ihr fun w hw => ih w (List.mem_cons_of_mem v hw)]
  | mapping kind entries ih => rfl
  | set kind elements ih => rfl
  | record table id ih => rfl

theorem freezable_iff {v : Value} : Freezable v ↔ v.freezeFault = none ∧ Digestible v.freeze := by
  rw [Freezable, Digestible, digestFault_freeze]

end Digestible

/-- What a copy is made of: nothing in it can be changed in place but byte buffers. -/
inductive Captured : Value → Prop
  | leaf {l : Leaf} (h : l.copyFault = none) : Captured (.leaf l)
  | seq {items : List Value} (h : ∀ v ∈ items, Captured v) : Captured (.seq (.tuple none) items)
  | mapping {entries : List (Value × Value)} (h : ∀ e ∈ entries, Captured e.2) :
    Captured (.mapping (.view none) entries)
  | set {elements : List Value} (h : ∀ v ∈ elements, Captured v) : Captured (.set .frozen elements)
  | record {table : String} {id : Value} : Captured (.record table id)

section Captured
variable {items : List Value} {entries : List (Value × Value)}

@[simp] theorem captured_leaf {l : Leaf} : Captured (.leaf l) ↔ l.copyFault = none :=
  ⟨fun | .leaf h => h, .leaf⟩

@[simp] theorem captured_tuple : Captured (.seq (.tuple none) items) ↔ ∀ v ∈ items, Captured v :=
  ⟨fun | .seq h => h, .seq⟩

@[simp] theorem captured_view :
    Captured (.mapping (.view none) entries) ↔ ∀ e ∈ entries, Captured e.2 :=
  ⟨fun | .mapping h => h, .mapping⟩

@[simp] theorem captured_frozen : Captured (.set .frozen items) ↔ ∀ v ∈ items, Captured v :=
  ⟨fun | .set h => h, .set⟩

@[simp] theorem captured_record {table : String} {id : Value} : Captured (.record table id) :=
  .record

end Captured

/-- The entries of a dictionary: its keys can be digested and are told apart. -/
structure KeysApart (entries : List (Value × Value)) : Prop where
  digestible : ∀ e ∈ entries, Digestible e.1
  apart : entries.Pairwise fun stored sought => isFor stored.1 sought.1 ≠ .equal

structure ElementsApart (elements : List Value) : Prop where
  digestible : ∀ v ∈ elements, Digestible v
  apart : elements.Pairwise fun stored sought => isFor stored sought ≠ .equal

/-- Holds of every value that is ever built. -/
inductive WellFormed : Value → Prop
  | leaf {l : Leaf} : WellFormed (.leaf l)
  | seq {kind : SeqKind} {items : List Value} (h : ∀ v ∈ items, WellFormed v) :
    WellFormed (.seq kind items)
  | mapping {kind : MapKind} {entries : List (Value × Value)} (apart : KeysApart entries)
    (keys : ∀ e ∈ entries, WellFormed e.1) (items : ∀ e ∈ entries, WellFormed e.2) :
    WellFormed (.mapping kind entries)
  | set {kind : SetKind} {elements : List Value} (apart : ElementsApart elements)
    (h : ∀ v ∈ elements, WellFormed v) : WellFormed (.set kind elements)
  | record {table : String} {id : Value} (h : WellFormed id) (captured : Captured id)
    (supported : id.isIdPart = true) : WellFormed (.record table id)

section WellFormed
variable {items : List Value} {entries : List (Value × Value)}

@[simp] theorem wellFormed_leaf {l : Leaf} : WellFormed (.leaf l) := .leaf

theorem wellFormed_seq {kind : SeqKind} :
    WellFormed (.seq kind items) ↔ ∀ v ∈ items, WellFormed v :=
  ⟨fun | .seq h => h, .seq⟩

theorem wellFormed_mapping {kind : MapKind} :
    WellFormed (.mapping kind entries) ↔ KeysApart entries ∧
      (∀ e ∈ entries, WellFormed e.1) ∧ ∀ e ∈ entries, WellFormed e.2 :=
  ⟨fun | .mapping apart keys items => ⟨apart, keys, items⟩, fun h => .mapping h.1 h.2.1 h.2.2⟩

theorem wellFormed_set {kind : SetKind} :
    WellFormed (.set kind items) ↔ ElementsApart items ∧ ∀ v ∈ items, WellFormed v :=
  ⟨fun | .set apart h => ⟨apart, h⟩, fun h => .set h.1 h.2⟩

theorem wellFormed_record {table : String} {id : Value} :
    WellFormed (.record table id) ↔ WellFormed id ∧ Captured id ∧ id.isIdPart = true :=
  ⟨fun | .record h captured supported => ⟨h, captured, supported⟩, fun h => .record h.1 h.2.1 h.2.2⟩

end WellFormed

end RecordLiteral.Value
