import RecordLiteral.Proofs.Contents

/-! # What a copy is written as

A copy has the layout of what it was made of: the same leaves, records and keys, each part in
the place that it had, only in containers that cannot be changed. The literal of a value
depends on nothing but its layout, so a record is written as the id that the caller gave
would be, and a record made of the parts of another is that record again. A set is built anew
when it is copied, which promises no order, so values that hold one are left out.
-/
namespace RecordLiteral.Value

variable {v w : Value}

/-- The same parts in the same order, in containers of whatever kind. -/
inductive SameLayout : Value → Value → Prop
  | leaf (l : Leaf) : SameLayout (.leaf l) (.leaf l)
  | seq {j k : SeqKind} {xs ys : List Value} (length : xs.length = ys.length)
    (items : ∀ p ∈ xs.zip ys, SameLayout p.1 p.2) : SameLayout (.seq j xs) (.seq k ys)
  | mapping {j k : MapKind} {xs ys : List (Value × Value)} (length : xs.length = ys.length)
    (keys : ∀ p ∈ xs.zip ys, p.1.1 = p.2.1) (items : ∀ p ∈ xs.zip ys, SameLayout p.1.2 p.2.2) :
    SameLayout (.mapping j xs) (.mapping k ys)
  | record (table : String) (id : Value) : SameLayout (.record table id) (.record table id)

/-- No set at any depth, keys and the ids of records apart, which a copy keeps as they are. -/
inductive SetFree : Value → Prop
  | leaf (l : Leaf) : SetFree (.leaf l)
  | seq {kind : SeqKind} {items : List Value} (h : ∀ v ∈ items, SetFree v) :
    SetFree (.seq kind items)
  | mapping {kind : MapKind} {entries : List (Value × Value)} (h : ∀ e ∈ entries, SetFree e.2) :
    SetFree (.mapping kind entries)
  | record (table : String) (id : Value) : SetFree (.record table id)

section SetFree
variable {kind : SeqKind} {items : List Value} {sort : MapKind} {entries : List (Value × Value)}

@[simp] theorem setFree_leaf {l : Leaf} : SetFree (.leaf l) := .leaf l

@[simp] theorem setFree_seq : SetFree (.seq kind items) ↔ ∀ v ∈ items, SetFree v :=
  ⟨fun | .seq h => h, .seq⟩

@[simp] theorem setFree_mapping : SetFree (.mapping sort entries) ↔ ∀ e ∈ entries, SetFree e.2 :=
  ⟨fun | .mapping h => h, .mapping⟩

end SetFree

theorem forall_mem_zip_map {α β : Type} {xs : List α} {f : α → β} {R : α → β → Prop}
    (h : ∀ x ∈ xs, R x (f x)) : ∀ p ∈ xs.zip (xs.map f), R p.1 p.2 := by
  have hzip : xs.zip (xs.map f) = xs.map fun x => (x, f x) := by
    simpa using List.zip_map' (f := id) (g := f) (l := xs)
  rw [hzip]
  exact List.forall_mem_map.mpr h

theorem SameLayout.literal_eq (h : SameLayout v w) : v.literal = w.literal := by
  induction h with
  | leaf l => rfl
  | seq length items ih =>
    rw [literal, literal, literals_eq_map, literals_eq_map, map_eq_map_iff_zip.mpr ⟨length, ih⟩]
  | mapping length keys items ih =>
    rw [literal, literal, entryLiterals_eq_map, entryLiterals_eq_map,
      map_eq_map_iff_zip.mpr ⟨length, fun p hp => ?_⟩]
    rw [keys p hp, ih p hp]
  | record table id => rfl

theorem SameLayout.idPart_eq (h : SameLayout v w) : v.idPart = w.idPart := by
  have hl := h.literal_eq
  cases h with
  | leaf l => rfl
  | seq length items => exact hl
  | mapping length keys items => exact hl
  | record table id => rfl

theorem SetFree.sameLayout_snapshot (h : SetFree v) : SameLayout v v.snapshot := by
  induction h with
  | leaf l => exact .leaf l
  | seq h ih =>
    rw [snapshot, snapshotItems_eq_map]
    exact .seq (List.length_map _).symm (forall_mem_zip_map ih)
  | mapping h ih =>
    rw [snapshot, snapshotEntries_eq_map]
    exact .mapping (List.length_map _).symm
      (forall_mem_zip_map (R := fun e f : Value × Value => e.1 = f.1) fun _ _ => rfl)
      (forall_mem_zip_map (R := fun e f : Value × Value => SameLayout e.2 f.2) ih)
  | record table id => exact .record table id

/-- A copy is its own copy. -/
theorem SetFree.snapshot_snapshot (h : SetFree v) : v.snapshot.snapshot = v.snapshot := by
  induction h with
  | leaf l => rfl
  | seq h ih =>
    simp only [snapshot, snapshotItems_eq_map, List.map_map, Function.comp_def]
    rw [List.map_congr_left ih]
  | mapping h ih =>
    simp only [snapshot, snapshotEntries_eq_map, List.map_map, Function.comp_def]
    rw [List.map_congr_left fun e he => by rw [ih e he]]
  | record table id => rfl

theorem Captured.not_circular (h : Captured v) : v.isCircular = false := by
  induction h with
  | @leaf l h => cases l <;> simp_all [isCircular, Leaf.copyFault]
  | seq h ih => rw [isCircular, isCircularAmong_eq_false]; exact ih
  | mapping h ih => rw [isCircular, isCircularAmongEntries_eq_false]; exact ih
  | set h ih => rfl
  | record => rfl

/-- What is made of the parts of a record is that record again. -/
theorem newRecord_parts {table : String} {r : Value} (hw : WellFormed v) (hs : SetFree v)
    (h : (newRecord (.leaf (.text table)) v).result = .ok r) :
    (newRecord (.leaf (.text table)) v.snapshot).result = .ok r := by
  obtain ⟨hi, hf, rfl⟩ := newRecord_eq_ok.mp h
  have copied := hw.copiedAs (not_circular_of_snapshotFault hf)
  refine newRecord_eq_ok.mpr ⟨(isIdPart_snapshot v).trans hi, ?_, by rw [hs.snapshot_snapshot]⟩
  exact copied.wellFormed.snapshotFault_eq_none.mpr copied.captured.not_circular

/-- A record is written as its table and the id that it was made of. The id that it shows has the
layout of that one, and the parts that it shows make an equal record with the same literal. An id
that holds itself is not accepted, for a copy of it would have no end. -/
theorem newRecord_display_and_parts (table : String) (hw : WellFormed v) (hs : SetFree v) :
    ((∃ r, (newRecord (.leaf (.text table)) v).result = .ok r) ↔
        v.isIdPart = true ∧ v.isCircular = false) ∧
      ∀ r, (newRecord (.leaf (.text table)) v).result = .ok r →
        r.display = Identifier.write table.toList ++ Literal.tableSeparator :: v.idPart ∧
          ∃ id, r.attribute? "table" = .ok (.leaf (.text table)) ∧ r.attribute? "id" = .ok id ∧
            SameLayout v id ∧ ∃ s, (newRecord (.leaf (.text table)) id).result = .ok s ∧
              s.equals? r = some .equal ∧ s.display = r.display := by
  constructor
  · simp only [newRecord_eq_ok, hw.snapshotFault_eq_none]
    exact ⟨fun ⟨_, hi, hc, _⟩ => ⟨hi, hc⟩, fun ⟨hi, hc⟩ => ⟨_, hi, hc, rfl⟩⟩
  · intro r hr
    have hagain := newRecord_parts hw hs hr
    have hself := hw.newRecord hr
    obtain ⟨hi, hf, rfl⟩ := newRecord_eq_ok.mp hr
    have layout := hs.sameLayout_snapshot
    refine ⟨?_, v.snapshot, rfl, rfl, layout, _, hagain, ?_, rfl⟩
    · rw [display, recordText, layout.idPart_eq]
      rfl
    · rw [equals?, if_pos rfl, (wellFormed_record.mp hself).1.deepEquals_self]

/-- Lists, an ordered dictionary, a signaling number and a set that is a key, all in one id. -/
theorem newRecord_display_and_parts_nested :
    let odd := Value.leaf (.decimal (.undefined true false 0 7))
    let inner := Value.mapping (.ordered 1) [(.leaf (.text "z"), odd), (.leaf (.text "a b"), .seq (.list 2) [])]
    let v := Value.mapping (.dict 3)
      [(.set .frozen [.leaf (.bool true)], .seq (.list 4) [.leaf .null, inner]), (.leaf (.int 1), odd)]
    ∃ r id, (newRecord (.leaf (.text "my t")) v).result = .ok r ∧ r.attribute? "id" = .ok id ∧
      r.display = "⟨my t⟩:{ ⟨frozenset({True})⟩: [ NULL, { z: NaN, ⟨a b⟩: [] } ], ⟨1⟩: NaN }".toList ∧
      ∃ s, (newRecord (.leaf (.text "my t")) id).result = .ok s ∧ s.equals? r = some .equal := by
  intro odd inner v
  have hinner : WellFormed inner := by
    refine wellFormed_mapping.mpr ⟨⟨by simp; decide, ?_⟩, by simp, by simp [odd, wellFormed_seq]⟩
    simp only [List.pairwise_pair]
    decide +kernel
  have hkey : WellFormed (.set .frozen [.leaf (.bool true)]) :=
    .set ⟨by simp; decide, List.pairwise_singleton _ _⟩ (by simp)
  have hw : WellFormed v := by
    refine wellFormed_mapping.mpr ⟨⟨by simp; decide, ?_⟩, by simp [hkey], by simp [odd, wellFormed_seq, hinner]⟩
    simp only [List.pairwise_pair]
    decide +kernel
  have hs : SetFree v := by simp [v, inner, odd]
  obtain ⟨accepts, hparts⟩ := newRecord_display_and_parts "my t" hw hs
  obtain ⟨r, hr⟩ := accepts.mpr (by decide)
  obtain ⟨hdisplay, id, -, hid, -, s, hs, hequals, -⟩ := hparts r hr
  refine ⟨r, id, hr, hid, ?_, s, hs, hequals⟩
  rw [hdisplay]
  decide +kernel

end RecordLiteral.Value
