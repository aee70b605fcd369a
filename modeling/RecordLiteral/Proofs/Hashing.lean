import RecordLiteral.Proofs.Lookup

/-! # Hash consistency

The frozen form of a value is determined by its form, and its digest is the one that
records are kept under. Records that compare equal therefore have equal frozen ids, equal
digests, and one entry in a dictionary.
-/
namespace RecordLiteral

open Digest

namespace Form

mutual

/-- The plain form of what a value with this form freezes to. -/
noncomputable def frozen : Form → Form
  | .key k => .key k
  | .truth b => (Leaf.bool b).form
  | .undefined l => .undefined l
  | .seq parts => .seq (frozenParts parts)
  | .mapping entries => .set (arranged (frozenEntries entries))
  | .set elements => .set elements
  | .record table id => .record table id

noncomputable def frozenParts : List Form → List Form
  | [] => []
  | f :: rest => frozen f :: frozenParts rest

noncomputable def frozenEntries : List (Form × Form) → List Form
  | [] => []
  | (k, item) :: rest => .seq [k, frozen item] :: frozenEntries rest

end

@[simp] theorem frozenParts_eq_map (parts : List Form) : frozenParts parts = parts.map frozen := by
  induction parts with
  | nil => rfl
  | cons f rest ih => simp [frozenParts, ih]

@[simp] theorem frozenEntries_eq_map (entries : List (Form × Form)) :
    frozenEntries entries = entries.map fun e => .seq [e.1, e.2.frozen] := by
  induction entries with
  | nil => rfl
  | cons e rest ih => simp [frozenEntries, ih]

end Form

theorem Leaf.frozen_form (l : Leaf) : l.form.frozen = l.form := by
  unfold form
  split <;> rfl

namespace Value

section Distinct
variable {vs elements : List Value} {v : Value}

theorem addTo_of_not_mem (hw : ∀ e ∈ elements, WellFormed e) (hd : ∀ e ∈ elements, Digestible e)
    (hwv : WellFormed v) (hdv : Digestible v) (hnew : v.plainForm ∉ elements.map plainForm) :
    addTo elements v = elements ++ [v] := by
  rw [addTo, if_neg]
  rwa [hwv.isAmong_iff hdv hw hd]

theorem foldl_addTo (hw : ∀ v ∈ elements ++ vs, WellFormed v)
    (hd : ∀ v ∈ elements ++ vs, Digestible v) (hnodup : ((elements ++ vs).map plainForm).Nodup) :
    vs.foldl addTo elements = elements ++ vs := by
  induction vs generalizing elements with
  | nil => simp
  | cons v rest ih =>
    have hv : v ∈ elements ++ v :: rest := by simp
    have hnew : v.plainForm ∉ elements.map plainForm := by
      rw [List.map_append, List.nodup_append] at hnodup
      intro hm
      exact hnodup.2.2 _ hm _ (by simp) rfl
    have hstep : addTo elements v = elements ++ [v] :=
      addTo_of_not_mem (fun e he => hw e (List.mem_append_left _ he))
        (fun e he => hd e (List.mem_append_left _ he)) (hw v hv) (hd v hv) hnew
    rw [List.foldl_cons, hstep, ih (by simpa using hw) (by simpa using hd) (by simpa using hnodup)]
    simp

theorem distinct_eq_self (hw : ∀ v ∈ vs, WellFormed v) (hd : ∀ v ∈ vs, Digestible v)
    (hnodup : (vs.map plainForm).Nodup) : distinct vs = vs :=
  foldl_addTo hw hd hnodup

end Distinct

/-- The frozen form of a value that has one: it is well-formed, known from the form of the
value, the same to a dictionary as the value if that can be a key, and digested as records
are. -/
structure FrozenAs (v frozen : Value) : Prop where
  wellFormed : WellFormed frozen
  plainForm_eq : frozen.plainForm = v.form.frozen
  plainForm_eq_of_digestible : Digestible v → frozen.plainForm = v.plainForm
  digest_eq : frozen.digest = v.frozenDigest

theorem frozenAs_seq {kind : SeqKind} {items : List Value}
    (ih : ∀ v ∈ items, FrozenAs v v.freeze) : FrozenAs (.seq kind items) (Value.seq kind items).freeze := by
  rw [freeze, freezeItems_eq_map]
  refine ⟨wellFormed_seq.mpr ?_, ?_, ?_, ?_⟩
  · exact List.forall_mem_map.mpr fun v hv => (ih v hv).wellFormed
  · simp only [plainForm, form, Form.frozen, plainForms_eq_map, forms_eq_map, Form.frozenParts_eq_map,
      List.map_map]
    exact congrArg Form.seq (List.map_congr_left fun v hv => (ih v hv).plainForm_eq)
  · intro hd
    obtain ⟨-, hd⟩ := hd.tuple
    simp only [plainForm, plainForms_eq_map, List.map_map]
    refine congrArg Form.seq (List.map_congr_left fun v hv => ?_)
    exact (ih v hv).plainForm_eq_of_digestible (hd v hv)
  · simp only [digest, frozenDigest, digests_eq_map, frozenDigests_eq_map, List.map_map]
    exact congrArg (ordered 15) (List.map_congr_left fun v hv => (ih v hv).digest_eq)

theorem frozenAs_mapping {kind : MapKind} {entries : List (Value × Value)}
    (apart : KeysApart entries) (hk : ∀ e ∈ entries, WellFormed e.1)
    (hf : ∀ e ∈ entries, Freezable e.2) (ih : ∀ e ∈ entries, FrozenAs e.2 e.2.freeze) :
    FrozenAs (.mapping kind entries) (Value.mapping kind entries).freeze := by
  obtain ⟨hd, hnodup⟩ := (keysApart_iff hk).mp apart
  have hw : ∀ v ∈ entries.map fun e => Value.seq (.tuple none) [e.1, e.2.freeze], WellFormed v := by
    refine List.forall_mem_map.mpr fun e he => wellFormed_seq.mpr ?_
    simp [hk e he, (ih e he).wellFormed]
  have hdp : ∀ v ∈ entries.map fun e => Value.seq (.tuple none) [e.1, e.2.freeze], Digestible v := by
    refine List.forall_mem_map.mpr fun e he => digestible_tuple.mpr ?_
    simp [hd e he, (freezable_iff.mp (hf e he)).2]
  have hpairs : ((entries.map fun e => Value.seq (.tuple none) [e.1, e.2.freeze]).map plainForm).Nodup := by
    rw [List.map_map]
    refine nodup_map_of_imp (fun e _ f _ heq => ?_) hnodup
    simp only [Function.comp_apply, plainForm, plainForms, Form.seq.injEq, List.cons.injEq] at heq
    exact heq.1
  rw [freeze, freezeEntries_eq_map, distinct_eq_self hw hdp hpairs]
  refine ⟨wellFormed_set.mpr ⟨(elementsApart_iff hw).mpr ⟨hdp, hpairs⟩, hw⟩, ?_, ?_, ?_⟩
  · simp only [plainForm, form, Form.frozen, Form.frozenEntries_eq_map, plainForms_eq_map,
      List.map_map, Form.set.injEq, arranged_eq_iff]
    refine List.Perm.trans ?_ ((arranged_perm _).map _).symm
    rw [entryForms_eq_map, List.map_map]
    refine List.Perm.of_eq (List.map_congr_left fun e he => ?_)
    simp [plainForm, plainForms, (ih e he).plainForm_eq]
  · intro hd
    exact absurd hd not_digestible_mapping
  · have hpair : ∀ e ∈ entries, (Value.seq (.tuple none) [e.1, e.2.freeze]).digest =
        ordered 15 [e.1.digest, e.2.frozenDigest] := by
      intro e he
      rw [digest, digests_eq_map, ← (ih e he).digest_eq, List.map_cons, List.map_singleton]
    rw [digest, frozenDigest, digests_eq_map, frozenEntryDigests_eq_map, List.map_map,
      Function.comp_def, List.map_congr_left hpair]

theorem frozenAs_set {kind : SetKind} {elements : List Value} (apart : ElementsApart elements)
    (hw : ∀ v ∈ elements, WellFormed v) (hf : ∀ v ∈ elements, Freezable v)
    (ih : ∀ v ∈ elements, FrozenAs v v.freeze) :
    FrozenAs (.set kind elements) (Value.set kind elements).freeze := by
  obtain ⟨hd, hnodup⟩ := (elementsApart_iff hw).mp apart
  have hforms : (elements.map freeze).map plainForm = elements.map plainForm := by
    rw [List.map_map]
    exact List.map_congr_left fun v hv => (ih v hv).plainForm_eq_of_digestible (hd v hv)
  have hwf : ∀ v ∈ elements.map freeze, WellFormed v :=
    List.forall_mem_map.mpr fun v hv => (ih v hv).wellFormed
  have hdf : ∀ v ∈ elements.map freeze, Digestible v :=
    List.forall_mem_map.mpr fun v hv => (freezable_iff.mp (hf v hv)).2
  rw [freeze, freezeItems_eq_map, distinct_eq_self hwf hdf (hforms ▸ hnodup)]
  refine ⟨wellFormed_set.mpr ⟨(elementsApart_iff hwf).mpr ⟨hdf, hforms ▸ hnodup⟩, hwf⟩, ?_, ?_, ?_⟩
  · simp only [plainForm, form, Form.frozen, plainForms_eq_map, hforms]
  · intro
    simp only [plainForm, plainForms_eq_map, hforms]
  · simp only [digest, frozenDigest, digests_eq_map, frozenDigests_eq_map, List.map_map]
    exact congrArg (unordered 17) (List.map_congr_left fun v hv => (ih v hv).digest_eq)

theorem WellFormed.frozenAs_of_freezeFault {v : Value} (hw : WellFormed v) (hf : v.freezeFault = none) :
    FrozenAs v v.freeze := by
  induction v using inductionOn with
  | leaf l =>
    refine ⟨.leaf, ?_, fun _ => by rw [freeze], by rw [freeze, digest, frozenDigest]⟩
    rcases form_leaf l with ⟨b, rfl⟩ | ⟨-, h⟩
    · rw [freeze, plainForm, form, Form.frozen]
    · rw [freeze, h, l.frozen_form, plainForm]
  | seq kind items ih =>
    have hw := wellFormed_seq.mp hw
    rw [freezeFault, freezeFaultIn_eq_none] at hf
    exact frozenAs_seq fun v hv => ih v hv (hw v hv) (hf v hv)
  | mapping kind entries ih =>
    obtain ⟨apart, hk, hi⟩ := wellFormed_mapping.mp hw
    rw [freezeFault, entriesFault_eq_none] at hf
    have hitems : ∀ e ∈ entries, Freezable e.2 := fun e he => (hf e he).2
    exact frozenAs_mapping apart hk hitems fun e he => (ih e he).2 (hi e he) (hitems e he).1
  | set kind elements ih =>
    obtain ⟨apart, hi⟩ := wellFormed_set.mp hw
    rw [freezeFault, elementsFault_eq_none] at hf
    exact frozenAs_set apart hi hf fun v hv => ih v hv (hi v hv) (hf v hv).1
  | record table id ih =>
    rw [freeze]
    exact ⟨hw, by rw [plainForm, form, Form.frozen], fun _ => rfl, by rw [digest, frozenDigest]⟩

theorem WellFormed.frozenAs {v : Value} (hw : WellFormed v) (hf : Freezable v) : FrozenAs v v.freeze :=
  hw.frozenAs_of_freezeFault hf.1

theorem freeze?_eq_ok {v frozen : Value} :
    v.freeze? = .ok frozen ↔ v.freezeFault = none ∧ v.freeze = frozen := by
  unfold freeze?
  split <;> simp [*]

theorem freezable_of_freeze? {v frozen : Value} (h : v.freeze? = .ok frozen)
    (hd : Digestible frozen) : Freezable v := by
  obtain ⟨hf, rfl⟩ := freeze?_eq_ok.mp h
  exact freezable_iff.mpr ⟨hf, hd⟩

theorem digest?_eq_ok {v : Value} {digest : Nat} :
    v.digest? = .ok digest ↔ Digestible v ∧ v.digest = digest := by
  unfold digest? Digestible
  split <;> simp [*]

theorem digest?_eq_error {v : Value} {fault : Fault} :
    v.digest? = .error fault ↔ v.digestFault = some fault := by
  unfold digest?
  split <;> simp [*]

/-- A record is digested through the frozen form of its id. There is no digest where that form
cannot be built, and none where it cannot be digested. -/
theorem WellFormed.digest?_record {id : Value} (hw : WellFormed id) (table : String) :
    (Value.record table id).digest? = (id.freeze?.bind digest?).map (ofRecord table) := by
  rw [digest?, digestFault, freeze?]
  cases hf : id.freezeFault with
  | some fault => rfl
  | none =>
    have frozen := hw.frozenAs_of_freezeFault hf
    rw [Option.none_or, ← digestFault_freeze, digest, ← frozen.digest_eq]
    change _ = id.freeze.digest?.map (ofRecord table)
    rw [digest?]
    cases id.freeze.digestFault <;> rfl

theorem WellFormed.record_digestFault_iff {id : Value} {fault : Fault} (hw : WellFormed id)
    (table : String) :
    (Value.record table id).digestFault = some fault ↔ id.freeze?.bind digest? = .error fault := by
  rw [← digest?_eq_error, hw.digest?_record table]
  cases id.freeze?.bind digest? <;> simp [Except.map]

theorem ident?_freeze {v : Value} (h : v.isIdPart = true) : v.freeze.ident? = none := by
  cases v with
  | leaf l => cases l <;> simp_all [isIdPart, freeze, ident?, Leaf.ident?, Leaf.undefinedIdent?]
  | _ => rfl

theorem itemEquals_eq_plainEquals {a b : Value} (h : a.ident? = none) :
    itemEquals a b = plainEquals a b := by
  rw [itemEquals, same, h]
  simp

/-- Records that compare equal have equal frozen ids and equal digests, and what a
dictionary keeps under one of them is found by the other. -/
theorem record_plainEquals_hash_consistent {table other : String} {a b f g : Value}
    (ha : WellFormed (.record table a)) (hb : WellFormed (.record other b))
    (heq : plainEquals (.record table a) (.record other b) = .equal)
    (hf : a.freeze? = .ok f) (hdf : Digestible f) (hg : b.freeze? = .ok g) (hdg : Digestible g) :
    plainEquals f g = .equal ∧ f.digest = g.digest ∧
      (Value.record table a).digest = (Value.record other b).digest ∧
      ∀ entries item, Dictionary.Keyed entries →
        ∃ result, Dictionary.put? entries (.record table a) item = .ok result ∧
          Dictionary.get? result (.record other b) = .ok (some item) := by
  have hfa := freezable_of_freeze? hf hdf
  have hfb := freezable_of_freeze? hg hdg
  obtain ⟨hwa, -, hia⟩ := wellFormed_record.mp ha
  obtain ⟨hwb, -, hib⟩ := wellFormed_record.mp hb
  obtain ⟨-, rfl⟩ := freeze?_eq_ok.mp hf
  obtain ⟨-, rfl⟩ := freeze?_eq_ok.mp hg
  have sa := hwa.frozenAs hfa
  have sb := hwb.frozenAs hfb
  rw [plainEquals_record] at heq
  split at heq
  · rename_i ht
    subst ht
    have hforms : a.form = b.form := (hwa.deepEquals_iff hwb).mp heq
    have hplain : a.freeze.plainForm = b.freeze.plainForm := by
      rw [sa.plainForm_eq, sb.plainForm_eq, hforms]
    have hdigest : a.freeze.digest = b.freeze.digest := by
      rw [← sa.wellFormed.digest_plainForm hdf, hplain, sb.wellFormed.digest_plainForm hdg]
    refine ⟨?_, hdigest, ?_, ?_⟩
    · rw [← itemEquals_eq_plainEquals (ident?_freeze hia)]
      exact ((equal_iff_forms _ _ sa.wellFormed sb.wellFormed).1 hdf hdg).mpr hplain
    · simp only [digest, ← sa.digest_eq, ← sb.digest_eq, hdigest]
    · intro entries item hkeyed
      refine Dictionary.get?_put? hkeyed ha (digestible_record.mpr hfa) hb (digestible_record.mpr hfb) ?_
      rw [plainForm, plainForm, hforms]
  · cases heq

/-- One entry for two records, with the entries of their ids in different order, numbers of
different kinds, and a number without worth in common. -/
theorem record_plainEquals_hash_consistent_reordered :
    let one := Value.leaf (.int 1)
    let other := Value.leaf (.decimal (.finite false 10 (-1)))
    let odd := Value.seq (.tuple none) [.leaf (.float (.undefined 7))]
    let a := Value.mapping (.view none) [(.leaf (.text "a"), one), (.leaf (.text "b"), odd)]
    let b := Value.mapping (.view none) [(.leaf (.text "b"), odd), (.leaf (.text "a"), other)]
    ∃ result, Dictionary.put? [] (.record "t" a) one = .ok result ∧
      Dictionary.get? result (.record "t" b) = .ok (some one) := by
  intro one other odd a b
  have keyed : ∀ x y : String, x ≠ y → ∀ v w : Value,
      Dictionary.Keyed [(.leaf (.text x), v), (.leaf (.text y), w)] := by
    intro x y hxy v w
    refine Dictionary.keyed_iff.mpr ⟨?_, ?_⟩
    · simp [Leaf.digestFault, Leaf.isSignaling, Leaf.quantity?]
    · simp [plainForm, Leaf.form, Leaf.isUndefined, Leaf.undefinedIdent?, Leaf.key, hxy]
  have hodd : WellFormed odd := wellFormed_seq.mpr (by simp)
  have ha : WellFormed (.record "t" a) := by
    refine .record (.mapping (keyed "a" "b" (by decide) one odd).apart ?_ ?_) ?_ rfl
    · simp
    · simp [one, hodd]
    · simp [a, one, odd, Leaf.copyFault]
  have hb : WellFormed (.record "t" b) := by
    refine .record (.mapping (keyed "b" "a" (by decide) odd other).apart ?_ ?_) ?_ rfl
    · simp
    · simp [other, hodd]
    · simp [b, other, odd, Leaf.copyFault]
  have hworth : one.form = other.form := deepEquals_leaf_eq_equal.mp (by
    simp [deepEquals_leaf, itemEquals_leaf, same, ident?, Leaf.ident?, Leaf.undefinedIdent?]
    decide +kernel)
  have heq : plainEquals (.record "t" a) (.record "t" b) = .equal := by
    rw [plainEquals_record, if_pos rfl,
      (wellFormed_record.mp ha).1.deepEquals_iff (wellFormed_record.mp hb).1]
    simp only [a, b, form, Form.mapping.injEq, arranged_eq_iff, entryForms, hworth]
    exact List.Perm.swap _ _ _
  exact (record_plainEquals_hash_consistent ha hb heq rfl rfl rfl rfl).2.2.2 [] one
    Dictionary.keyed_nil

end Value
end RecordLiteral
