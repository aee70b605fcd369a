import RecordLiteral.Proofs.Contents
import RecordLiteral.Workspace

/-! # Construction of records

The constructor of records rejects a table that is no text and, after that, an id of a kind that
is not supported. A rejection names the part that it is about, and is logged once before it is
reported. Of everything else a record is made, and nothing is logged, unless the id holds itself.
The parts of an id are not looked at, and still the copy of it cannot fail in another way: a set is
built anew, and the copies of its elements can be digested and are told apart as the elements were.
-/
namespace RecordLiteral

namespace Rejection

/-- What a rejection is about. -/
def part : Rejection → String
  | .table _ => "table part"
  | .id .. => "id part"
  | .source _ => "string record id"

theorem message_part (r : Rejection) : ∃ rest, (Fault.rejected r).message = r.part ++ rest := by
  rw [Fault.message_rejected]
  cases r with
  | table typeName =>
    refine ⟨" is not valid: expected str, got " ++ typeName, ?_⟩
    rw [← String.append_assoc]
    exact congrArg (· ++ typeName) rfl
  | id name typeName =>
    refine ⟨" is not valid: unsupported type " ++ typeName, ?_⟩
    rw [← String.append_assoc]
    exact congrArg (· ++ typeName) rfl
  | source typeName =>
    refine ⟨" must be a string, RecordId or StringRecordId, got " ++ typeName, ?_⟩
    rw [← String.append_assoc]
    exact congrArg (· ++ typeName) rfl

theorem logEntry_message (r : Rejection) :
    ∃ before, r.logEntry = before ++ (Fault.rejected r).message := by
  cases r <;> exact ⟨_, rfl⟩

end Rejection

namespace Value

/-- The kinds of values that can be ids. -/
inductive SupportedId : Value → Prop
  | text (s : String) : SupportedId (.leaf (.text s))
  | int (n : Int) : SupportedId (.leaf (.int n))
  | uuid (u : Uuid) : SupportedId (.leaf (.uuid u))
  | seq (kind : SeqKind) (items : List Value) : SupportedId (.seq kind items)
  | mapping (kind : MapKind) (entries : List (Value × Value)) : SupportedId (.mapping kind entries)

mutual

/-- The sets that a copy builds anew, at any depth. Keys and records are not copied. -/
def setsWithin : Value → List (List Value)
  | .leaf _ => []
  | .seq _ items => setsWithinItems items
  | .mapping _ entries => setsWithinEntries entries
  | .set _ elements => elements :: setsWithinItems elements
  | .record .. => []

def setsWithinItems : List Value → List (List Value)
  | [] => []
  | v :: rest => setsWithin v ++ setsWithinItems rest

def setsWithinEntries : List (Value × Value) → List (List Value)
  | [] => []
  | (_, item) :: rest => setsWithin item ++ setsWithinEntries rest

end

@[simp] theorem setsWithinItems_eq_flatMap (items : List Value) :
    setsWithinItems items = items.flatMap setsWithin := by
  induction items with
  | nil => rfl
  | cons v rest ih => simp [setsWithinItems, ih]

@[simp] theorem setsWithinEntries_eq_flatMap (entries : List (Value × Value)) :
    setsWithinEntries entries = entries.flatMap fun e => e.2.setsWithin := by
  induction entries with
  | nil => rfl
  | cons e rest ih => simp [setsWithinEntries, ih]

variable {v id table : Value} {fault : Fault}

theorem isIdPart_iff : v.isIdPart = true ↔ SupportedId v := by
  constructor
  · intro h
    cases v with
    | leaf l =>
      cases l with
      | text s => exact .text s
      | int n => exact .int n
      | uuid u => exact .uuid u
      | _ => cases h
    | seq kind items => exact .seq kind items
    | mapping kind entries => exact .mapping kind entries
    | _ => cases h
  · intro h
    cases h <;> rfl

section Copies

theorem WellFormed.snapshot_set {kind : SetKind} {elements : List Value}
    (hw : WellFormed (.set kind elements)) :
    (Value.set kind elements).snapshot = .set .frozen (elements.map snapshot) ∧
      ElementsApart (elements.map snapshot) := by
  obtain ⟨apart, hi⟩ := wellFormed_set.mp hw
  obtain ⟨hapart, hdistinct, -⟩ := elementsApart_copies apart hi fun v hv =>
    (hi v hv).copiedAs (apart.digestible v hv).not_circular
  refine ⟨?_, hapart⟩
  rw [snapshot, snapshotItems_eq_map, hdistinct]

/-- Each set is copied as the list of the copies of its elements. -/
theorem WellFormed.setsWithin_snapshot (hw : WellFormed v) :
    v.snapshot.setsWithin = v.setsWithin.map (List.map snapshot) := by
  induction v using inductionOn with
  | leaf l => rfl
  | seq kind items ih =>
    have hw := wellFormed_seq.mp hw
    simp only [snapshot, snapshotItems_eq_map, setsWithin, setsWithinItems_eq_flatMap,
      List.flatMap_map, List.map_flatMap]
    exact List.flatMap_congr fun v hv => ih v hv (hw v hv)
  | mapping kind entries ih =>
    obtain ⟨-, -, hi⟩ := wellFormed_mapping.mp hw
    simp only [snapshot, snapshotEntries_eq_map, setsWithin, setsWithinEntries_eq_flatMap,
      List.flatMap_map, List.map_flatMap]
    exact List.flatMap_congr fun e he => (ih e he).2 (hi e he)
  | set kind elements ih =>
    obtain ⟨-, hi⟩ := wellFormed_set.mp hw
    rw [hw.snapshot_set.1]
    simp only [setsWithin, setsWithinItems_eq_flatMap, List.flatMap_map, List.map_cons,
      List.map_flatMap]
    exact congrArg _ (List.flatMap_congr fun v hv => ih v hv (hi v hv))
  | record table id ih => rfl

theorem WellFormed.copiesApart (hw : WellFormed v) :
    ∀ elements ∈ v.setsWithin, ElementsApart (elements.map snapshot) := by
  induction v using inductionOn with
  | leaf l => simp [setsWithin]
  | seq kind items ih =>
    have hw := wellFormed_seq.mp hw
    rw [setsWithin, setsWithinItems_eq_flatMap, List.forall_mem_flatMap]
    exact fun v hv => ih v hv (hw v hv)
  | mapping kind entries ih =>
    obtain ⟨-, -, hi⟩ := wellFormed_mapping.mp hw
    rw [setsWithin, setsWithinEntries_eq_flatMap, List.forall_mem_flatMap]
    exact fun e he => (ih e he).2 (hi e he)
  | set kind elements ih =>
    obtain ⟨-, hi⟩ := wellFormed_set.mp hw
    rw [setsWithin, setsWithinItems_eq_flatMap, List.forall_mem_cons, List.forall_mem_flatMap]
    exact ⟨hw.snapshot_set.2, fun v hv => ih v hv (hi v hv)⟩
  | record table id ih => simp [setsWithin]

/-- Nothing keeps a value from being copied but that the copy has no end. -/
theorem WellFormed.snapshotFault_eq_endless (hw : WellFormed v) (h : v.snapshotFault = some fault) :
    fault = .endless := by
  induction v using inductionOn with
  | leaf l => cases l <;> simp_all [snapshotFault, Leaf.copyFault]
  | seq kind items ih =>
    rw [snapshotFault, snapshotFaultIn_eq_findSome?] at h
    obtain ⟨v, hv, h⟩ := List.exists_of_findSome?_eq_some h
    exact ih v hv (wellFormed_seq.mp hw v hv) h
  | mapping kind entries ih =>
    rw [snapshotFault, snapshotEntriesFault_eq_findSome?] at h
    obtain ⟨e, he, h⟩ := List.exists_of_findSome?_eq_some h
    exact (ih e he).2 ((wellFormed_mapping.mp hw).2.2 e he) h
  | set kind elements ih =>
    have hnone := hw.snapshotFault_eq_none.mpr rfl
    simp [hnone] at h
  | record table id ih => cases h

theorem WellFormed.snapshot?_eq (hw : WellFormed v) :
    v.snapshot? = if v.isCircular then .error .endless else .ok v.snapshot := by
  unfold snapshot?
  split
  · rename_i fault h
    have hc : v.isCircular = true := by
      rw [← Bool.not_eq_false, ← hw.snapshotFault_eq_none, h]
      simp
    rw [hc, hw.snapshotFault_eq_endless h]
    rfl
  · rename_i h
    rw [hw.snapshotFault_eq_none.mp h]
    rfl

end Copies

/-- What construction can come to, by the table first and then by the id. -/
theorem newRecord_cases (table : Value) (hw : WellFormed id) :
    ((∀ name, table ≠ .leaf (.text name)) ∧ newRecord table id =
        ⟨[(Rejection.table table.typeName).logEntry], .error (.rejected (.table table.typeName))⟩) ∨
      ∃ name, table = .leaf (.text name) ∧
        (¬ SupportedId id ∧ newRecord table id =
            ⟨[(Rejection.id name id.typeName).logEntry], .error (.rejected (.id name id.typeName))⟩ ∨
          SupportedId id ∧ newRecord table id =
            ⟨[], if id.isCircular then .error .endless else .ok (.record name id.snapshot)⟩) := by
  by_cases ht : ∃ name, table = .leaf (.text name)
  · obtain ⟨name, rfl⟩ := ht
    refine Or.inr ⟨name, rfl, ?_⟩
    rw [newRecord_text, ← isIdPart_iff, hw.snapshot?_eq]
    cases id.isIdPart with
    | false => exact Or.inl ⟨by simp, rfl⟩
    | true =>
      refine Or.inr ⟨rfl, ?_⟩
      cases id.isCircular <;> rfl
  · rw [not_exists] at ht
    refine Or.inl ⟨ht, ?_⟩
    unfold newRecord Entity.constructRecord
    split
    · exact absurd rfl (ht _)
    · rfl

/-- Of ids that do not hold themselves construction fails by validation alone: the arguments are
rejected just when the table is no text or the id is of no supported kind. Then the reason is
logged, and nothing else; it names the table if that is at fault. Otherwise a record is made and
nothing is logged, and each set within the id is copied as the list of the copies of its elements,
none of them refused and none taken for another. An accepted id that holds itself has no copy. -/
theorem newRecord_outcome (table : Value) (hw : WellFormed id) :
    (id.isCircular = false →
      ((∃ fault, (newRecord table id).result = .error fault) ↔
        (∀ name, table ≠ .leaf (.text name)) ∨ ¬ SupportedId id)) ∧
      ((∀ name, table ≠ .leaf (.text name)) ∨ ¬ SupportedId id →
        ∃ reason, newRecord table id = ⟨[reason.logEntry], .error (.rejected reason)⟩ ∧
          (Fault.rejected reason).className = "InvalidRecordIdError" ∧
          (∃ before, reason.logEntry = before ++ (Fault.rejected reason).message) ∧
          (∃ rest, (Fault.rejected reason).message = reason.part ++ rest) ∧
          ((∀ name, table ≠ .leaf (.text name)) → reason.part = "table part") ∧
          ∀ name, table = .leaf (.text name) → reason.part = "id part") ∧
      (∀ name, table = .leaf (.text name) → SupportedId id →
        newRecord table id =
          ⟨[], if id.isCircular then .error .endless else .ok (.record name id.snapshot)⟩) ∧
      (id.isCircular = false → id.snapshot? = .ok id.snapshot) ∧
      id.snapshot.setsWithin = id.setsWithin.map (List.map snapshot) ∧
      ∀ elements ∈ id.setsWithin, ElementsApart (elements.map snapshot) := by
  have hcopy : id.isCircular = false → id.snapshot? = .ok id.snapshot := by
    intro hc
    rw [hw.snapshot?_eq, hc]
    rfl
  rcases newRecord_cases table hw with ⟨ht, h⟩ | ⟨name, rfl, ⟨hs, h⟩ | ⟨hs, h⟩⟩ <;> rw [h]
  · refine ⟨fun _ => ⟨fun _ => Or.inl ht, fun _ => ⟨_, rfl⟩⟩, fun _ => ⟨_, rfl, rfl, ?_⟩,
      fun name hname => absurd hname (ht name), hcopy, hw.setsWithin_snapshot, hw.copiesApart⟩
    exact ⟨Rejection.logEntry_message _, Rejection.message_part _, fun _ => rfl,
      fun name hname => absurd hname (ht name)⟩
  · refine ⟨fun _ => ⟨fun _ => Or.inr hs, fun _ => ⟨_, rfl⟩⟩, fun _ => ⟨_, rfl, rfl, ?_⟩,
      fun _ _ h => absurd h hs, hcopy, hw.setsWithin_snapshot, hw.copiesApart⟩
    exact ⟨Rejection.logEntry_message _, Rejection.message_part _, fun hn => absurd rfl (hn name),
      fun _ _ => rfl⟩
  · have hvalid :
        ¬ ((∀ other, Value.leaf (.text name) ≠ .leaf (.text other)) ∨ ¬ SupportedId id) := by
      rintro (hn | hn)
      · exact hn name rfl
      · exact hn hs
    refine ⟨fun hc => ⟨?_, fun hn => absurd hn hvalid⟩, fun hn => absurd hn hvalid, ?_, hcopy,
      hw.setsWithin_snapshot, hw.copiesApart⟩
    · rintro ⟨fault, hfault⟩
      simp [hc] at hfault
    · rintro other hname -
      cases hname
      rfl

/-- A bad table is named although the id is bad too. A set of a frozen set and a tuple, both of
which hold one number without worth, is copied with both and with what is in them. -/
theorem newRecord_outcome_nested :
    let odd := Value.leaf (.float (.undefined 7))
    let inner := Value.set .frozen [.seq (.tuple (some 2)) [odd]]
    let id := Value.seq (.list 1) [.set .mutable [inner, .seq (.tuple (some 3)) [odd, .leaf (.int 1)]]]
    (newRecord (.leaf .null) (.leaf .null)).log =
        ["rejecting record id: table part is not valid: expected str, got NoneType"] ∧
      (newRecord (.leaf (.text "t")) id).result = .ok (.record "t" id.snapshot) ∧
      id.snapshot.setsWithin.map List.length = [2, 1] := by
  intro odd inner id
  have hinner : WellFormed inner :=
    wellFormed_set.mpr ⟨⟨by simp [odd]; decide, List.pairwise_singleton _ _⟩, by simp [wellFormed_seq, odd]⟩
  have hid : WellFormed id := by
    refine wellFormed_seq.mpr (List.forall_mem_singleton.mpr (wellFormed_set.mpr ⟨⟨?_, ?_⟩, ?_⟩))
    · simp [inner, odd]
      decide
    · rw [List.pairwise_pair]
      decide +kernel
    · simp [hinner, wellFormed_seq, odd]
  obtain ⟨-, -, hmade, -, hsets, -⟩ := newRecord_outcome (.leaf (.text "t")) hid
  have hnull : WellFormed (.leaf .null) := .leaf
  obtain ⟨reason, hrejected, -⟩ := (newRecord_outcome (.leaf .null) hnull).2.1 (Or.inl (by simp))
  refine ⟨?_, ?_, ?_⟩
  · rw [hrejected]
    cases congrArg Logged.result hrejected
    rfl
  · rw [hmade "t" rfl (.seq _ _)]
    rfl
  · rw [hsets]
    simp [id, inner, odd, setsWithin]

/-- A program puts a list into itself. The list is of a supported kind, but no record can be made
of it, and nothing is logged. -/
theorem newRecord_holding_itself :
    let list := Term.variable "x"
    let steps : List Step := [.bind "x" (.seq (.list 0) []), .append list list]
    let ws := (Workspace.empty.run steps).2
    let id := Value.seq (.list 0) [.leaf (.again .list 0)]
    ws.bindings.lookup "x" = some id ∧ WellFormed id ∧ SupportedId id ∧
      newRecord (.leaf (.text "t")) id = ⟨[], .error .endless⟩ ∧
      (ws.step (.bind "r" (.record (.leaf (.text "t")) list))).1.result = .error .endless ∧
      ¬ ((∃ fault, (newRecord (.leaf (.text "t")) id).result = .error fault) ↔
        (∀ name, Value.leaf (.text "t") ≠ .leaf (.text name)) ∨ ¬ SupportedId id) := by
  intro list steps ws id
  have hid : WellFormed id := wellFormed_seq.mpr (by simp)
  have hsupported : SupportedId id := .seq _ _
  have hendless : newRecord (.leaf (.text "t")) id = ⟨[], .error .endless⟩ := rfl
  refine ⟨by decide +kernel, hid, hsupported, hendless, rfl, fun h => ?_⟩
  rcases h.mp ⟨.endless, congrArg Logged.result hendless⟩ with htable | hkind
  · exact htable "t" rfl
  · exact hkind hsupported

end Value
end RecordLiteral
