import RecordLiteral.Entity
import RecordLiteral.Value.Loop
import RecordLiteral.Proofs.Hashing

/-! # Captured ids

The read-only copy that a record takes of its id has the form of what was copied, and
comparing copies takes the same course as comparing the originals: it ends with the same
answer, or at the same signaling number.
-/
namespace RecordLiteral.Value

section Digestible
variable {v : Value}

theorem Digestible.not_circular (h : Digestible v) : v.isCircular = false := by
  induction v using inductionOn with
  | leaf l => cases l <;> simp_all [isCircular, Leaf.digestFault]
  | seq kind items ih =>
    obtain ⟨-, hd⟩ := h.tuple
    rw [isCircular, isCircularAmong_eq_false]
    intro v hv
    exact ih v hv (hd v hv)
  | mapping kind entries ih => exact absurd h not_digestible_mapping
  | set kind elements ih => rfl
  | record table id ih => rfl

theorem not_circular_of_snapshotFault (h : v.snapshotFault = none) : v.isCircular = false := by
  induction v using inductionOn with
  | leaf l => cases l <;> simp_all [isCircular, snapshotFault, Leaf.copyFault]
  | seq kind items ih =>
    rw [snapshotFault, snapshotFaultIn_eq_none] at h
    rw [isCircular, isCircularAmong_eq_false]
    intro v hv
    exact ih v hv (h v hv)
  | mapping kind entries ih =>
    rw [snapshotFault, snapshotEntriesFault_eq_none] at h
    rw [isCircular, isCircularAmongEntries_eq_false]
    intro e he
    exact (ih e he).2 (h e he)
  | set kind elements ih => rfl
  | record table id ih => rfl

end Digestible

structure CopiedAs (v copy : Value) : Prop where
  wellFormed : WellFormed copy
  captured : Captured copy
  form_eq : copy.form = v.form
  of_digestible : Digestible v → Digestible copy ∧ copy.plainForm = v.plainForm

theorem copiedAs_seq {kind : SeqKind} {items : List Value}
    (ih : ∀ v ∈ items, CopiedAs v v.snapshot) :
    CopiedAs (.seq kind items) (Value.seq kind items).snapshot := by
  rw [snapshot, snapshotItems_eq_map]
  refine ⟨wellFormed_seq.mpr ?_, .seq ?_, ?_, ?_⟩
  · exact List.forall_mem_map.mpr fun v hv => (ih v hv).wellFormed
  · exact List.forall_mem_map.mpr fun v hv => (ih v hv).captured
  · simp only [form, forms_eq_map, List.map_map]
    exact congrArg Form.seq (List.map_congr_left fun v hv => (ih v hv).form_eq)
  · intro hd
    obtain ⟨-, hd⟩ := hd.tuple
    constructor
    · rw [digestible_tuple]
      exact List.forall_mem_map.mpr fun v hv => ((ih v hv).of_digestible (hd v hv)).1
    · simp only [plainForm, plainForms_eq_map, List.map_map]
      refine congrArg Form.seq (List.map_congr_left fun v hv => ?_)
      exact ((ih v hv).of_digestible (hd v hv)).2

theorem copiedAs_mapping {kind : MapKind} {entries : List (Value × Value)}
    (apart : KeysApart entries) (hk : ∀ e ∈ entries, WellFormed e.1)
    (ih : ∀ e ∈ entries, CopiedAs e.2 e.2.snapshot) :
    CopiedAs (.mapping kind entries) (Value.mapping kind entries).snapshot := by
  rw [snapshot, snapshotEntries_eq_map]
  refine ⟨wellFormed_mapping.mpr ⟨⟨?_, ?_⟩, ?_, ?_⟩, .mapping ?_, ?_, ?_⟩
  · exact List.forall_mem_map.mpr fun e he => apart.digestible e he
  · exact List.pairwise_map.mpr apart.apart
  · exact List.forall_mem_map.mpr fun e he => hk e he
  · exact List.forall_mem_map.mpr fun e he => (ih e he).wellFormed
  · exact List.forall_mem_map.mpr fun e he => (ih e he).captured
  · simp only [form, entryForms_eq_map, List.map_map, Function.comp_def]
    rw [List.map_congr_left fun e he => by rw [(ih e he).form_eq]]
  · intro hd
    exact absurd hd not_digestible_mapping

/-- The copies of the elements of a set are as many: none is taken for another. -/
theorem elementsApart_copies {elements : List Value} (apart : ElementsApart elements)
    (hw : ∀ v ∈ elements, WellFormed v) (ih : ∀ v ∈ elements, CopiedAs v v.snapshot) :
    ElementsApart (elements.map snapshot) ∧ distinct (elements.map snapshot) = elements.map snapshot ∧
      (elements.map snapshot).map plainForm = elements.map plainForm := by
  obtain ⟨hd, hnodup⟩ := (elementsApart_iff hw).mp apart
  have hforms : (elements.map snapshot).map plainForm = elements.map plainForm := by
    rw [List.map_map]
    exact List.map_congr_left fun v hv => ((ih v hv).of_digestible (hd v hv)).2
  have hwc : ∀ v ∈ elements.map snapshot, WellFormed v :=
    List.forall_mem_map.mpr fun v hv => (ih v hv).wellFormed
  have hdc : ∀ v ∈ elements.map snapshot, Digestible v :=
    List.forall_mem_map.mpr fun v hv => ((ih v hv).of_digestible (hd v hv)).1
  exact ⟨(elementsApart_iff hwc).mpr ⟨hdc, hforms ▸ hnodup⟩, distinct_eq_self hwc hdc (hforms ▸ hnodup), hforms⟩

theorem copiedAs_set {kind : SetKind} {elements : List Value} (apart : ElementsApart elements)
    (hw : ∀ v ∈ elements, WellFormed v) (ih : ∀ v ∈ elements, CopiedAs v v.snapshot) :
    CopiedAs (.set kind elements) (Value.set kind elements).snapshot := by
  obtain ⟨hapart, hdistinct, hforms⟩ := elementsApart_copies apart hw ih
  rw [snapshot, snapshotItems_eq_map, hdistinct]
  refine ⟨wellFormed_set.mpr ⟨hapart, ?_⟩, .set ?_, ?_, ?_⟩
  · exact List.forall_mem_map.mpr fun v hv => (ih v hv).wellFormed
  · exact List.forall_mem_map.mpr fun v hv => (ih v hv).captured
  · simp only [form, plainForms_eq_map, hforms]
  · intro
    simp only [plainForm, plainForms_eq_map, hforms, digestible_frozen, and_self]

theorem WellFormed.copiedAs {v : Value} (hw : WellFormed v) (hc : v.isCircular = false) :
    CopiedAs v v.snapshot := by
  induction v using inductionOn with
  | leaf l =>
    refine ⟨hw, .leaf ?_, rfl, fun hd => ⟨hd, rfl⟩⟩
    cases l <;> simp_all [isCircular, Leaf.copyFault]
  | seq kind items ih =>
    have hw := wellFormed_seq.mp hw
    rw [isCircular, isCircularAmong_eq_false] at hc
    exact copiedAs_seq fun v hv => ih v hv (hw v hv) (hc v hv)
  | mapping kind entries ih =>
    obtain ⟨apart, hk, hi⟩ := wellFormed_mapping.mp hw
    rw [isCircular, isCircularAmongEntries_eq_false] at hc
    exact copiedAs_mapping apart hk fun e he => (ih e he).2 (hi e he) (hc e he)
  | set kind elements ih =>
    obtain ⟨apart, hi⟩ := wellFormed_set.mp hw
    refine copiedAs_set apart hi fun v hv => ih v hv (hi v hv) ?_
    exact (apart.digestible v hv).not_circular
  | record table id ih => exact ⟨hw, .record, rfl, fun hd => ⟨hd, rfl⟩⟩

theorem WellFormed.snapshotFault_eq_none {v : Value} (hw : WellFormed v) :
    v.snapshotFault = none ↔ v.isCircular = false := by
  refine ⟨not_circular_of_snapshotFault, fun hc => ?_⟩
  induction v using inductionOn with
  | leaf l => cases l <;> simp_all [isCircular, snapshotFault, Leaf.copyFault]
  | seq kind items ih =>
    have hw := wellFormed_seq.mp hw
    rw [isCircular, isCircularAmong_eq_false] at hc
    rw [snapshotFault, snapshotFaultIn_eq_none]
    intro v hv
    exact ih v hv (hw v hv) (hc v hv)
  | mapping kind entries ih =>
    obtain ⟨-, -, hi⟩ := wellFormed_mapping.mp hw
    rw [isCircular, isCircularAmongEntries_eq_false] at hc
    rw [snapshotFault, snapshotEntriesFault_eq_none]
    intro e he
    exact (ih e he).2 (hi e he) (hc e he)
  | set kind elements ih =>
    obtain ⟨apart, hi⟩ := wellFormed_set.mp hw
    rw [snapshotFault, snapshotElementsFault_eq_none]
    intro v hv
    have hd := apart.digestible v hv
    exact ⟨ih v hv (hi v hv) hd.not_circular, (((hi v hv).copiedAs hd.not_circular).of_digestible hd).1⟩
  | record table id ih => rfl

theorem snapshot?_eq_ok {v copy : Value} :
    v.snapshot? = .ok copy ↔ v.snapshotFault = none ∧ v.snapshot = copy := by
  unfold snapshot?
  split <;> simp [*]

section Comparison

theorem deepItems_snapshot {xs ys : List Value}
    (h : ∀ x ∈ xs, ∀ y ∈ ys, deepEquals x.snapshot y.snapshot = deepEquals x y) :
    deepItems (xs.map snapshot) (ys.map snapshot) = deepItems xs ys := by
  induction xs generalizing ys with
  | nil => simp [deepItems]
  | cons x xs ih =>
    cases ys with
    | nil => simp [deepItems]
    | cons y ys =>
      rw [List.map_cons, List.map_cons, deepItems, deepItems, h x List.mem_cons_self y List.mem_cons_self,
        ih fun x hx y hy => h x (List.mem_cons_of_mem _ hx) y (List.mem_cons_of_mem _ hy)]

theorem deepAt_snapshot {key item : Value} {ys : List (Value × Value)}
    (h : ∀ e ∈ ys, deepEquals item.snapshot e.2.snapshot = deepEquals item e.2) :
    deepAt key item.snapshot (ys.map fun e => (e.1, e.2.snapshot)) = deepAt key item ys := by
  induction ys with
  | nil => simp [deepAt]
  | cons e rest ih =>
    rw [List.map_cons, deepAt, deepAt, h e List.mem_cons_self,
      ih fun e he => h e (List.mem_cons_of_mem _ he)]

theorem deepEntries_snapshot {xs ys : List (Value × Value)}
    (h : ∀ e ∈ xs, ∀ f ∈ ys, deepEquals e.2.snapshot f.2.snapshot = deepEquals e.2 f.2) :
    deepEntries (xs.map fun e => (e.1, e.2.snapshot)) (ys.map fun e => (e.1, e.2.snapshot)) =
      deepEntries xs ys := by
  induction xs with
  | nil => simp [deepEntries]
  | cons e rest ih =>
    rw [List.map_cons, deepEntries, deepEntries, deepAt_snapshot (h e List.mem_cons_self),
      ih fun e he => h e (List.mem_cons_of_mem _ he)]

theorem snapshot_kind (v : Value) : v.snapshot.kind = v.kind := by
  cases v <;> rfl

theorem WellFormed.deepEquals_self {v : Value} (h : WellFormed v) : deepEquals v v = .equal :=
  (h.deepEquals_iff h).mpr rfl

theorem deepEquals_set_ne_signals {j k : SetKind} {xs ys : List Value}
    (ha : WellFormed (.set j xs)) (hb : WellFormed (.set k ys)) :
    deepEquals (.set j xs) (.set k ys) ≠ .signals := by
  obtain ⟨apartx, hx⟩ := wellFormed_set.mp ha
  obtain ⟨aparty, hy⟩ := wellFormed_set.mp hb
  rw [deepEquals_set]
  refine plainEquals_set_ne_signals fun x hx' y hy' => ?_
  exact (compare_ne_signals y x (hy y hy') (hx x hx')).1 (aparty.digestible y hy')
    (apartx.digestible x hx')

/-- The copies of one object are two objects, but equal ones. -/
theorem deepEquals_snapshot_of_same {a b : Value} (ha : WellFormed a) (hca : a.isCircular = false)
    (hs : a.same b = true) : deepEquals a.snapshot b.snapshot = deepEquals a b := by
  have heq : deepEquals a b = .equal := by
    unfold deepEquals
    rw [if_pos hs]
  cases eq_of_same hs
  rw [heq]
  exact (ha.copiedAs hca).wellFormed.deepEquals_self

/-- Copies compare as the originals do, signals included. -/
theorem deepEquals_snapshot (a b : Value) (ha : WellFormed a) (hb : WellFormed b)
    (hca : a.isCircular = false) (hcb : b.isCircular = false) :
    deepEquals a.snapshot b.snapshot = deepEquals a b := by
  induction a, b using alignedInduction with
  | leaf a b => rfl
  | seq j k xs ys ih =>
    by_cases hs : (Value.seq j xs).same (.seq k ys) = true
    · exact deepEquals_snapshot_of_same ha hca hs
    · have hx := wellFormed_seq.mp ha
      have hy := wellFormed_seq.mp hb
      rw [isCircular, isCircularAmong_eq_false] at hca hcb
      have hitems : deepItems (xs.map snapshot) (ys.map snapshot) = deepItems xs ys := by
        apply deepItems_snapshot
        intro x hx' y hy'
        have part := ih x (List.mem_append_left _ hx') y (List.mem_append_right _ hy')
        exact part (hx x hx') (hy y hy') (hca x hx') (hcb y hy')
      rw [snapshot, snapshot, deepEquals_seq, deepEquals_seq, if_neg hs]
      simp only [snapshotItems_eq_map, List.length_map, hitems]
      rfl
  | mapping j k xs ys ih =>
    by_cases hs : (Value.mapping j xs).same (.mapping k ys) = true
    · exact deepEquals_snapshot_of_same ha hca hs
    · obtain ⟨-, -, hx⟩ := wellFormed_mapping.mp ha
      obtain ⟨-, -, hy⟩ := wellFormed_mapping.mp hb
      rw [isCircular, isCircularAmongEntries_eq_false] at hca hcb
      have hentries : deepEntries (xs.map fun e => (e.1, e.2.snapshot))
          (ys.map fun e => (e.1, e.2.snapshot)) = deepEntries xs ys := by
        apply deepEntries_snapshot
        intro e he f hf
        have item := (ih e (List.mem_append_left _ he) f (List.mem_append_right _ hf)).2
        exact item (hx e he) (hy f hf) (hca e he) (hcb f hf)
      rw [snapshot, snapshot, deepEquals_mapping, deepEquals_mapping, if_neg hs]
      simp only [snapshotEntries_eq_map, List.length_map, hentries]
      rfl
  | set j k xs ys ih =>
    have ca := ha.copiedAs hca
    have cb := hb.copiedAs hcb
    apply Verdict.eq_of_equal_iff
    · exact deepEquals_set_ne_signals ca.wellFormed cb.wellFormed
    · exact deepEquals_set_ne_signals ha hb
    · rw [ca.wellFormed.deepEquals_iff cb.wellFormed, ca.form_eq, cb.form_eq, ha.deepEquals_iff hb]
  | record t u i j ih => rfl
  | apart a b h =>
    have hc : ¬ Aligned a.snapshot b.snapshot := by
      intro hc
      have hkind : a.kind = b.kind := by
        rw [← snapshot_kind a, hc.kind_eq, snapshot_kind]
      exact h (aligned_of_kind_eq hkind)
    rw [deepEquals_of_not_aligned h, deepEquals_of_not_aligned hc]

end Comparison

section Records
variable {a b : Value}

theorem newRecord_text (table : String) (id : Value) :
    newRecord (.leaf (.text table)) id =
      if id.isIdPart then ⟨[], id.snapshot?.map (.record table)⟩
      else ⟨[(Rejection.id table id.typeName).logEntry], .error (.rejected (.id table id.typeName))⟩ := by
  have htable : (Entity.blank .record).assign "_table" (.leaf (.text table)) =
      ⟨⟨.record, [("_table", .leaf (.text table))]⟩, [], none⟩ := rfl
  have hid : ∀ copy, Entity.assign ⟨.record, [("_table", .leaf (.text table))]⟩ "_id" copy =
      ⟨⟨.record, [("_table", .leaf (.text table)), ("_id", copy)]⟩, [], none⟩ := fun _ => rfl
  rw [newRecord, Entity.constructRecord]
  split
  · rw [htable]
    cases h : id.snapshot? with
    | ok copy =>
      simp only [Outcome.andThen, hid, Outcome.built]
      rfl
    | error fault =>
      simp only [Outcome.andThen, Entity.fail, Outcome.built]
      rfl
  · rfl

theorem newRecord_result (table : String) (id : Value) :
    (newRecord (.leaf (.text table)) id).result =
      if id.isIdPart then id.snapshot?.map (.record table)
      else .error (.rejected (.id table id.typeName)) := by
  rw [newRecord_text]
  split <;> rfl

theorem newRecord_eq_ok {table : String} {id r : Value} :
    (newRecord (.leaf (.text table)) id).result = .ok r ↔
      id.isIdPart = true ∧ id.snapshotFault = none ∧ r = .record table id.snapshot := by
  rw [newRecord_result]
  split
  · rename_i hi
    cases h : id.snapshot? with
    | ok copy =>
      obtain ⟨hf, rfl⟩ := snapshot?_eq_ok.mp h
      simp [Except.map, hi, hf, eq_comm]
    | error fault =>
      have hf : id.snapshotFault ≠ none := by
        intro hf
        rw [snapshot?_eq_ok.mpr ⟨hf, rfl⟩] at h
        cases h
      simp [Except.map, hf]
  · rename_i hi
    simp [hi]

/-- The ids that are accepted are those of a supported kind that do not hold themselves: a copy of
one that does would have no end. Records compare as the ids that they were made of. -/
theorem newRecord_equals? (table other : String) (ha : WellFormed a) (hb : WellFormed b) :
    ((∃ r, (newRecord (.leaf (.text table)) a).result = .ok r) ↔
        a.isIdPart = true ∧ a.isCircular = false) ∧
      ∀ r s, (newRecord (.leaf (.text table)) a).result = .ok r →
        (newRecord (.leaf (.text other)) b).result = .ok s →
        r.equals? s = some (if table = other then deepEquals a b else .unequal) := by
  constructor
  · simp only [newRecord_eq_ok, ha.snapshotFault_eq_none]
    exact ⟨fun ⟨_, hi, hc, _⟩ => ⟨hi, hc⟩, fun ⟨hi, hc⟩ => ⟨_, hi, hc, rfl⟩⟩
  · intro r s hr hs
    obtain ⟨-, hfa, rfl⟩ := newRecord_eq_ok.mp hr
    obtain ⟨-, hfb, rfl⟩ := newRecord_eq_ok.mp hs
    rw [equals?, deepEquals_snapshot a b ha hb (not_circular_of_snapshotFault hfa)
      (not_circular_of_snapshotFault hfb)]

/-- A number without worth in a list that both ids hold does no harm; two signaling numbers
behind it are compared after all. -/
theorem newRecord_equals?_shared :
    let shared := Value.seq (.list 5) [.leaf (.float (.undefined 6))]
    let a := Value.seq (.list 1) [shared, .leaf (.decimal (.undefined true false 0 3))]
    let b := Value.seq (.list 2) [shared, .leaf (.decimal (.undefined true false 0 4))]
    ∃ r s, (newRecord (.leaf (.text "t")) a).result = .ok r ∧
      (newRecord (.leaf (.text "t")) b).result = .ok s ∧ r.equals? s = some .signals := by
  intro shared a b
  have hshared : WellFormed shared := wellFormed_seq.mpr (by simp)
  have ha : WellFormed a := wellFormed_seq.mpr (by simp [hshared])
  have hb : WellFormed b := wellFormed_seq.mpr (by simp [hshared])
  obtain ⟨hacceptsa, hequals⟩ := newRecord_equals? "t" "t" ha hb
  obtain ⟨r, hr⟩ := hacceptsa.mpr ⟨rfl, rfl⟩
  obtain ⟨s, hs⟩ := (newRecord_equals? "t" "t" hb ha).1.mpr ⟨rfl, rfl⟩
  have hne : a.same b = false := by decide
  have hself : deepEquals shared shared = .equal := hshared.deepEquals_self
  have hsignals : deepEquals (.leaf (.decimal (.undefined true false 0 3)))
      (.leaf (.decimal (.undefined true false 0 4))) = .signals := by
    rw [deepEquals_leaf (by simp) (by simp), itemEquals_leaf]
    decide
  refine ⟨r, s, hr, hs, ?_⟩
  rw [hequals r s hr hs, if_pos rfl, deepEquals_seq, hne]
  simp [deepItems, hself, hsignals, Verdict.andThen]

end Records

end RecordLiteral.Value
