import RecordLiteral.Proofs.Keys

/-! # Which records can be keys

A record can be digested, through the frozen form of its id, unless the id holds a byte buffer or a
signaling number that is reached through sequences, the items of mappings and the ids of records.
Nothing is to be looked for in keys and in sets: what is there was digested when it came in. The
fault is that of one such leaf, whether it is met while a frozen set is built or when the frozen id
is digested. No container stands in the way: freezing makes tuples and frozen sets of all of them.
-/
namespace RecordLiteral

namespace Leaf

/-- The leaves that cannot be digested: byte buffers and signaling numbers. -/
inductive Undigestible : Leaf → Prop
  | buffer (ident : Ident) (data : List UInt8) : Undigestible (.buffer ident data)
  | signaling (negative : Bool) (payload : Nat) (ident : Ident) :
    Undigestible (.decimal (.undefined true negative payload ident))

variable {l : Leaf}

theorem eq_of_isSignaling (h : l.isSignaling = true) :
    ∃ negative payload ident, l = .decimal (.undefined true negative payload ident) := by
  cases l with
  | float x => cases x <;> simp [isSignaling, quantity?, Double.quantity] at h
  | decimal x =>
    cases x with
    | undefined signaling negative payload ident =>
      cases signaling with
      | true => exact ⟨negative, payload, ident, rfl⟩
      | false => simp [isSignaling, quantity?, Decimal.quantity] at h
    | finite negative coefficient exponent => simp [isSignaling, quantity?, Decimal.quantity] at h
    | infinite negative => simp [isSignaling, quantity?, Decimal.quantity] at h
  | _ => simp [isSignaling, quantity?] at h

theorem Undigestible.digestFault (h : Undigestible l) :
    l.digestFault = some (.unhashable "bytearray") ∨ l.digestFault = some .signalingDigest := by
  cases h with
  | buffer ident data => exact Or.inl rfl
  | signaling negative payload ident => exact Or.inr rfl

theorem undigestible_iff (h : l.copyFault = none) : Undigestible l ↔ l.digestFault ≠ none := by
  constructor
  · intro hu
    rcases hu.digestFault with hf | hf <;> simp [hf]
  · intro hf
    by_cases hs : l.isSignaling = true
    · obtain ⟨negative, payload, ident, rfl⟩ := eq_of_isSignaling hs
      exact .signaling negative payload ident
    · cases l with
      | buffer ident data => exact .buffer ident data
      | again shape ident => cases h
      | _ => simp [Leaf.digestFault, hs] at hf

end Leaf

namespace Value

mutual

/-- The leaves reached through sequences, the items of mappings and the ids of records. -/
def exposedLeaves : Value → List Leaf
  | .leaf l => [l]
  | .seq _ items => exposedLeavesIn items
  | .mapping _ entries => exposedLeavesInEntries entries
  | .set .. => []
  | .record _ id => exposedLeaves id

def exposedLeavesIn : List Value → List Leaf
  | [] => []
  | v :: rest => exposedLeaves v ++ exposedLeavesIn rest

def exposedLeavesInEntries : List (Value × Value) → List Leaf
  | [] => []
  | (_, item) :: rest => exposedLeaves item ++ exposedLeavesInEntries rest

end

@[simp] theorem exposedLeavesIn_eq_flatMap (items : List Value) :
    exposedLeavesIn items = items.flatMap exposedLeaves := by
  induction items with
  | nil => rfl
  | cons v rest ih => simp [exposedLeavesIn, ih]

@[simp] theorem exposedLeavesInEntries_eq_flatMap (entries : List (Value × Value)) :
    exposedLeavesInEntries entries = entries.flatMap fun e => e.2.exposedLeaves := by
  induction entries with
  | nil => rfl
  | cons e rest ih => simp [exposedLeavesInEntries, ih]

/-- A copy shows the leaves of what it was made of. -/
theorem exposedLeaves_snapshot (v : Value) : v.snapshot.exposedLeaves = v.exposedLeaves := by
  induction v using inductionOn with
  | leaf l => rfl
  | seq kind items ih =>
    simp only [snapshot, snapshotItems_eq_map, exposedLeaves, exposedLeavesIn_eq_flatMap,
      List.flatMap_map]
    exact List.flatMap_congr ih
  | mapping kind entries ih =>
    simp only [snapshot, snapshotEntries_eq_map, exposedLeaves, exposedLeavesInEntries_eq_flatMap,
      List.flatMap_map]
    exact List.flatMap_congr fun e he => (ih e he).2
  | set kind elements ih => rfl
  | record table id ih => rfl

section Faults
variable {v : Value} {items : List Value} {entries : List (Value × Value)} {fault : Fault}

/-- What can be a key or an element has a frozen form that can be digested too. -/
theorem Digestible.freezable (hd : Digestible v) (hw : WellFormed v) : Freezable v := by
  induction v using inductionOn with
  | leaf l =>
    refine ⟨?_, hd⟩
    cases l <;> simp_all [freezeFault, Leaf.copyFault, Leaf.digestFault]
  | seq kind items ih =>
    obtain ⟨-, hd⟩ := hd.tuple
    have hw := wellFormed_seq.mp hw
    exact freezable_seq.mpr fun v hv => ih v hv (hd v hv) (hw v hv)
  | mapping kind entries ih => exact absurd hd not_digestible_mapping
  | set kind elements ih =>
    obtain ⟨apart, hw⟩ := wellFormed_set.mp hw
    exact freezable_set.mpr fun v hv => ih v hv (apart.digestible v hv) (hw v hv)
  | record table id ih => exact freezable_record.mpr (digestible_record.mp hd)

theorem WellFormed.freezable_set {kind : SetKind} (hw : WellFormed (.set kind items)) :
    Freezable (.set kind items) := by
  obtain ⟨apart, hw⟩ := wellFormed_set.mp hw
  exact Value.freezable_set.mpr fun v hv => (apart.digestible v hv).freezable (hw v hv)

/-- Only leaves that are reached without going through keys and sets stand in the way. -/
theorem WellFormed.freezable_iff_leaves (hw : WellFormed v) :
    Freezable v ↔ ∀ l ∈ v.exposedLeaves, l.digestFault = none := by
  induction v using inductionOn with
  | leaf l =>
    rw [exposedLeaves, List.forall_mem_singleton, ← digestible_leaf]
    exact ⟨fun h => h.2, fun h => h.freezable hw⟩
  | seq kind items ih =>
    have hw := wellFormed_seq.mp hw
    rw [freezable_seq, exposedLeaves, exposedLeavesIn_eq_flatMap, List.forall_mem_flatMap]
    exact forall₂_congr fun v hv => ih v hv (hw v hv)
  | mapping kind entries ih =>
    obtain ⟨apart, -, hi⟩ := wellFormed_mapping.mp hw
    rw [freezable_mapping, exposedLeaves, exposedLeavesInEntries_eq_flatMap, List.forall_mem_flatMap]
    refine forall₂_congr fun e he => ?_
    rw [and_iff_right (apart.digestible e he), (ih e he).2 (hi e he)]
  | set kind elements ih => simp [hw.freezable_set, exposedLeaves]
  | record table id ih => rw [freezable_record, exposedLeaves, ih (wellFormed_record.mp hw).1]

theorem Captured.copyFault_of_exposed (hc : Captured v) (hw : WellFormed v) :
    ∀ l ∈ v.exposedLeaves, l.copyFault = none := by
  induction v using inductionOn with
  | leaf l => simpa [exposedLeaves] using hc
  | seq kind items ih =>
    cases hc with
    | seq hc =>
      have hw := wellFormed_seq.mp hw
      rw [exposedLeaves, exposedLeavesIn_eq_flatMap, List.forall_mem_flatMap]
      exact fun v hv => ih v hv (hc v hv) (hw v hv)
  | mapping kind entries ih =>
    cases hc with
    | mapping hc =>
      obtain ⟨-, -, hi⟩ := wellFormed_mapping.mp hw
      rw [exposedLeaves, exposedLeavesInEntries_eq_flatMap, List.forall_mem_flatMap]
      exact fun e he => (ih e he).2 (hc e he) (hi e he)
  | set kind elements ih => simp [exposedLeaves]
  | record table id ih =>
    obtain ⟨hw, hc, -⟩ := wellFormed_record.mp hw
    exact ih hc hw

/-- The fault of a value is the fault of one of its leaves. -/
theorem Captured.fault_of_exposed (hc : Captured v) (hw : WellFormed v)
    (h : v.freezeFault = some fault ∨ v.frozenDigestFault = some fault) :
    ∃ l ∈ v.exposedLeaves, l.digestFault = some fault := by
  induction v using inductionOn with
  | leaf l =>
    rw [freezeFault, captured_leaf.mp hc] at h
    rcases h with h | h
    · cases h
    · exact ⟨l, by simp [exposedLeaves], h⟩
  | seq kind items ih =>
    cases hc with
    | seq hc =>
      have hw := wellFormed_seq.mp hw
      obtain ⟨v, hv, h⟩ : ∃ v ∈ items, v.freezeFault = some fault ∨ v.frozenDigestFault = some fault := by
        rw [freezeFault, frozenDigestFault, freezeFaultIn_eq_findSome?, frozenDigestFaultIn_eq_findSome?] at h
        rcases h with h | h
        · obtain ⟨v, hv, h⟩ := List.exists_of_findSome?_eq_some h
          exact ⟨v, hv, Or.inl h⟩
        · obtain ⟨v, hv, h⟩ := List.exists_of_findSome?_eq_some h
          exact ⟨v, hv, Or.inr h⟩
      obtain ⟨l, hl, hf⟩ := ih v hv (hc v hv) (hw v hv) h
      rw [exposedLeaves, exposedLeavesIn_eq_flatMap]
      exact ⟨l, List.mem_flatMap.mpr ⟨v, hv, hl⟩, hf⟩
  | mapping kind entries ih =>
    cases hc with
    | mapping hc =>
      obtain ⟨apart, -, hi⟩ := wellFormed_mapping.mp hw
      rcases h with h | h
      · rw [freezeFault, entriesFault_eq_findSome?] at h
        obtain ⟨e, he, h⟩ := List.exists_of_findSome?_eq_some h
        have hkey : e.1.digestFault = none := apart.digestible e he
        have hitem : e.2.freezeFault = some fault ∨ e.2.frozenDigestFault = some fault := by
          rw [hkey, Option.none_or, Option.or_eq_some_iff] at h
          exact h.imp_right And.right
        obtain ⟨l, hl, hf⟩ := (ih e he).2 (hc e he) (hi e he) hitem
        rw [exposedLeaves, exposedLeavesInEntries_eq_flatMap]
        exact ⟨l, List.mem_flatMap.mpr ⟨e, he, hl⟩, hf⟩
      · cases h
  | set kind elements ih =>
    obtain ⟨hf, hd⟩ := hw.freezable_set
    simp [hf, hd] at h
  | record table id ih =>
    obtain ⟨hw, hc, -⟩ := wellFormed_record.mp hw
    rcases h with h | h
    · cases h
    · rw [frozenDigestFault, Option.or_eq_some_iff] at h
      exact ih hc hw (h.imp_right And.right)

/-- A record is refused a digest just when a leaf that is exposed in its id is, and for the
reason for which one of them is. -/
theorem WellFormed.record_digestFault {table : String} {id : Value} (hw : WellFormed (.record table id)) :
    ((Value.record table id).digestFault = none ↔ ∀ l ∈ id.exposedLeaves, ¬ l.Undigestible) ∧
      ∀ fault, (Value.record table id).digestFault = some fault →
        ∃ l ∈ id.exposedLeaves, l.Undigestible ∧ l.digestFault = some fault := by
  obtain ⟨hid, hc, -⟩ := wellFormed_record.mp hw
  have hcopy := hc.copyFault_of_exposed hid
  constructor
  · show Digestible (.record table id) ↔ _
    rw [digestible_record, hid.freezable_iff_leaves]
    refine forall₂_congr fun l hl => ?_
    rw [Leaf.undigestible_iff (hcopy l hl), not_not]
  · intro fault h
    rw [digestFault, Option.or_eq_some_iff] at h
    obtain ⟨l, hl, hf⟩ := hc.fault_of_exposed hid (h.imp_right And.right)
    exact ⟨l, hl, (Leaf.undigestible_iff (hcopy l hl)).mpr (by simp [hf]), hf⟩

end Faults

end Value

namespace Dictionary

variable {entries : List (Value × Value)} {key : Value} {fault : Fault}

theorem exists_get? (h : Keyed entries) (hw : key.WellFormed) (hd : key.Digestible) :
    ∃ found, get? entries key = .ok found := by
  rcases locate_cases h hw hd with ⟨hl, -⟩ | ⟨before, entry, after, rfl, -, hl⟩
  · exact ⟨_, get?_of_index? ((index?_eq_locate hd).trans hl)⟩
  · exact ⟨_, get?_of_index? ((index?_eq_locate hd).trans hl)⟩

theorem exists_put? (item : Value) (h : Keyed entries) (hw : key.WellFormed) (hd : key.Digestible) :
    ∃ result, put? entries key item = .ok result := by
  rcases put?_cases item h hw hd with ⟨-, hp⟩ | ⟨before, entry, after, rfl, -, hp⟩
  · exact ⟨_, hp⟩
  · exact ⟨_, hp⟩

theorem put?_of_not_digestible {item : Value} (h : key.digestFault = some fault) :
    put? entries key item = .error fault := by
  rw [put?, index?, h]
  rfl

end Dictionary

namespace Workspace

open Value

variable {ws : Workspace} {key item : Value} {sought value : Term} {fault : Fault}

theorem store_answer (hw : ws.WellFormed)
    (ha : ws.addressed? (.store sought value) = some (key, some item)) :
    (ws.step (.store sought value)).1.result =
      (Dictionary.put? ws.dictionary key item).map fun entries => .count entries.length := by
  obtain ⟨-, -, after, hperform⟩ := perform_store hw ha
  show ((Step.store sought value).perform.exec { ws with log := [] }).1 = _
  rw [hperform]
  cases Dictionary.put? ws.dictionary key item <;> rfl

theorem refused_of_digestFault (hw : ws.WellFormed) (hs : ws.valueOf? sought = some key)
    (hf : key.digestFault = some fault) :
    (ws.step (.lookup sought)).1.result = .error fault ∧
      ∀ value item, ws.addressed? (.store sought value) = some (key, some item) →
        (ws.step (.store sought value)).1.result = .error fault := by
  constructor
  · rw [lookup_answer hw hs, Dictionary.get?_of_not_digestible hf]
    rfl
  · intro value item ha
    rw [store_answer hw ha, Dictionary.put?_of_not_digestible hf]
    rfl

theorem served_of_digestible (hw : ws.WellFormed) (hs : ws.valueOf? sought = some key)
    (hd : key.Digestible) :
    (∃ found, (ws.step (.lookup sought)).1.result = .ok (.found found)) ∧
      ∀ value item, ws.addressed? (.store sought value) = some (key, some item) →
        ∃ count, (ws.step (.store sought value)).1.result = .ok (.count count) := by
  have hkeyed := hw.dictionary.keyed
  have hk := wellFormed_of_valueOf? hw hs
  constructor
  · obtain ⟨found, hg⟩ := Dictionary.exists_get? hkeyed hk hd
    exact ⟨found, by rw [lookup_answer hw hs, hg]; rfl⟩
  · intro value item ha
    obtain ⟨entries, hp⟩ := Dictionary.exists_put? item hkeyed hk hd
    exact ⟨entries.length, by rw [store_answer hw ha, hp]; rfl⟩

/-- A record that a program has made is digested through the frozen form of its id. Unless a byte
buffer or a signaling number is exposed in the id, the frozen form can be built and digested, and
the record serves as a key of the dictionary. Otherwise there is no digest, and looking the record
up and storing under it are refused for such a leaf. The id that the record was made of exposes
the same leaves, in whatever containers. -/
theorem record_key_refused_iff {steps : List Step} {table : String} {id : Value}
    (hsought : (empty.run steps).2.valueOf? sought = some (.record table id)) :
    let ws := (empty.run steps).2
    (Value.record table id).digest? = (id.freeze?.bind digest?).map (Digest.ofRecord table) ∧
      ((∃ l ∈ id.exposedLeaves, l.Undigestible) →
        ∃ fault, fault.className = "TypeError" ∧
          (fault = .unhashable "bytearray" ∨ fault = .signalingDigest) ∧
          (∃ l ∈ id.exposedLeaves, l.digestFault = some fault) ∧
          id.freeze?.bind digest? = .error fault ∧
          (ws.step (.lookup sought)).1.result = .error fault ∧
          ∀ value item, ws.addressed? (.store sought value) = some (.record table id, some item) →
            (ws.step (.store sought value)).1.result = .error fault) ∧
      ((∀ l ∈ id.exposedLeaves, ¬ l.Undigestible) →
        (∃ frozen, id.freeze? = .ok frozen ∧ Digestible frozen ∧
          (Value.record table id).digest? = .ok (Digest.ofRecord table frozen.digest)) ∧
        (∃ found, (ws.step (.lookup sought)).1.result = .ok (.found found)) ∧
        ∀ value item, ws.addressed? (.store sought value) = some (.record table id, some item) →
          ∃ count, (ws.step (.store sought value)).1.result = .ok (.count count)) ∧
      ∀ original, (newRecord (.leaf (.text table)) original).result = .ok (.record table id) →
        id.exposedLeaves = original.exposedLeaves := by
  intro ws
  have hws : ws.WellFormed := wellFormed_empty.run steps
  have hw : (Value.record table id).WellFormed := wellFormed_of_valueOf? hws hsought
  have hid := (wellFormed_record.mp hw).1
  have hdigest := hid.digest?_record table
  obtain ⟨hnone, hsome⟩ := hw.record_digestFault
  refine ⟨hdigest, ?_, ?_, ?_⟩
  · rintro ⟨l, hl, hu⟩
    obtain ⟨fault, hf⟩ : ∃ fault, (Value.record table id).digestFault = some fault :=
      Option.ne_none_iff_exists'.mp fun hf => hnone.mp hf l hl hu
    obtain ⟨m, hm, hmu, hmf⟩ := hsome fault hf
    have hkind : fault = .unhashable "bytearray" ∨ fault = .signalingDigest := by
      simpa [hmf] using hmu.digestFault
    have hclass : fault.className = "TypeError" := by
      rcases hkind with rfl | rfl <;> rfl
    exact ⟨fault, hclass, hkind, ⟨m, hm, hmf⟩, (hid.record_digestFault_iff table).mp hf,
      refused_of_digestFault hws hsought hf⟩
  · intro hall
    have hd : Digestible (.record table id) := hnone.mpr hall
    obtain ⟨hf, hdf⟩ := freezable_iff.mp (digestible_record.mp hd)
    have hfreeze : id.freeze? = .ok id.freeze := freeze?_eq_ok.mpr ⟨hf, rfl⟩
    have hfrozen : id.freeze.digest? = .ok id.freeze.digest := digest?_eq_ok.mpr ⟨hdf, rfl⟩
    refine ⟨⟨id.freeze, hfreeze, hdf, ?_⟩, served_of_digestible hws hsought hd⟩
    rw [hdigest, hfreeze, Except.bind, hfrozen]
    rfl
  · intro original hr
    obtain ⟨-, -, hid⟩ := newRecord_eq_ok.mp hr
    cases hid
    exact exposedLeaves_snapshot original

/-- A buffer stands in the id of a record that is an item of a mapping, and a signaling number
behind it: the buffer is met first, when a set is built. Sets, views and lists do no harm. -/
theorem record_key_refused_iff_nested :
    let inner := Term.record (.leaf (.text "u")) (.seq (.list 0) [.leaf (.buffer 0 [97])])
    let odd := Term.leaf (.decimal (.undefined true false 0 0))
    let steps : List Step := [
      .bindRecord "r" (.leaf (.text "t")) (.seq (.list 0) [.mapping (.dict 0) [(.leaf .null, inner)], odd]),
      .bindRecord "s" (.leaf (.text "t")) (.mapping (.view none)
        [(.leaf (.int 1), .set .mutable [.seq (.tuple none) [], .set .frozen []]), (.leaf .null, .seq (.list 0) [])])]
    let ws := (empty.run steps).2
    (ws.step (.store (.variable "r") (.leaf .null))).1.result = .error (.unhashable "bytearray") ∧
      ∃ count, (ws.step (.store (.variable "s") (.leaf .null))).1.result = .ok (.count count) := by
  intro inner odd steps ws
  let refused := Value.seq (.tuple none) [
    .mapping (.view none) [(.leaf .null, .record "u" (.seq (.tuple none) [.leaf (.buffer 3 [97])]))],
    .leaf (.decimal (.undefined true false 0 6))]
  let accepted := Value.mapping (.view none)
    [(.leaf (.int 1), .set .frozen [.seq (.tuple none) [], .set .frozen []]), (.leaf .null, .seq (.tuple none) [])]
  have hrefused : ws.valueOf? (.variable "r") = some (.record "t" refused) := by decide +kernel
  have haccepted : ws.valueOf? (.variable "s") = some (.record "t" accepted) := by decide +kernel
  have hbuffer : ∃ l ∈ refused.exposedLeaves, l.Undigestible :=
    ⟨.buffer 3 [97], by simp [refused, exposedLeaves], .buffer 3 [97]⟩
  obtain ⟨fault, -, -, -, hfault, -, hstore⟩ := (record_key_refused_iff hrefused).2.1 hbuffer
  have hfirst : refused.freeze?.bind digest? = .error (.unhashable "bytearray") := rfl
  have hnone : ∀ l ∈ accepted.exposedLeaves, ¬ l.Undigestible := by
    simp [accepted, exposedLeaves]
  obtain ⟨-, -, hstored⟩ := (record_key_refused_iff haccepted).2.2.1 hnone
  have hr : ws.addressed? (.store (.variable "r") (.leaf .null)) =
      some (.record "t" refused, some (.leaf .null)) := by decide +kernel
  have hs : ws.addressed? (.store (.variable "s") (.leaf .null)) =
      some (.record "t" accepted, some (.leaf .null)) := by decide +kernel
  cases hfault.symm.trans hfirst
  unfold ws
  exact ⟨hstore _ _ hr, hstored _ _ hs⟩

end Workspace
end RecordLiteral
