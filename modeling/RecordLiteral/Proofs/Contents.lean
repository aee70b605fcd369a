import RecordLiteral.Term
import RecordLiteral.Proofs.Capture

/-! # Contents

What is taken out of a well-formed value, and what a container becomes when it is changed,
is well-formed again.
-/
namespace RecordLiteral

theorem Except.bind_eq_ok {α β : Type} {value : Except Fault α} {next : α → Except Fault β}
    {result : β} (h : value >>= next = .ok result) :
    ∃ middle, value = .ok middle ∧ next middle = .ok result := by
  cases value with
  | error fault => cases h
  | ok middle => exact ⟨middle, rfl, h⟩

theorem mem_of_lookup {name : String} {v : Value} {entries : List (String × Value)}
    (h : entries.lookup name = some v) : (name, v) ∈ entries := by
  obtain ⟨before, after, rfl, -⟩ := List.lookup_eq_some_iff.mp h
  simp

namespace Dictionary

/-- What is well-formed as a dictionary of any kind. -/
structure Sound (entries : List (Value × Value)) : Prop where
  keyed : Keyed entries
  items : ∀ e ∈ entries, e.2.WellFormed

section Sound
variable {entries result : List (Value × Value)} {key item : Value}

theorem sound_nil : Sound [] := ⟨keyed_nil, by simp⟩

theorem wellFormed_mapping_iff {kind : MapKind} :
    Value.WellFormed (.mapping kind entries) ↔ Sound entries := by
  rw [Value.wellFormed_mapping]
  constructor
  · rintro ⟨apart, hk, hi⟩
    exact ⟨⟨apart, hk⟩, hi⟩
  · rintro ⟨⟨apart, hk⟩, hi⟩
    exact ⟨apart, hk, hi⟩

theorem Sound.mapItems (f : Value → Value) (h : Sound entries)
    (hf : ∀ e ∈ entries, e.2.WellFormed → (f e.2).WellFormed) :
    Sound (entries.map fun e => (e.1, f e.2)) := by
  obtain ⟨⟨apart, hk⟩, hi⟩ := h
  refine ⟨⟨⟨?_, List.pairwise_map.mpr apart.apart⟩, ?_⟩, ?_⟩
  · exact List.forall_mem_map.mpr fun e he => apart.digestible e he
  · exact List.forall_mem_map.mpr fun e he => hk e he
  · exact List.forall_mem_map.mpr fun e he => hf e he (hi e he)

theorem Sound.put? (h : Sound entries) (hk : key.WellFormed) (hi : item.WellFormed)
    (hp : Dictionary.put? entries key item = .ok result) : Sound result := by
  refine ⟨put?_keyed h.keyed hk hp, fun e he => ?_⟩
  rcases put?_items h.keyed hk hp e he with rfl | he
  · exact hi
  · exact h.items e he

theorem Sound.sublist (h : Sound entries) (hs : result.Sublist entries) : Sound result :=
  ⟨h.keyed.sublist hs, fun e he => h.items e (hs.subset he)⟩

end Sound

end Dictionary

namespace Value

open Dictionary (wellFormed_mapping_iff)

section Loops
variable {container v : Value}

theorem WellFormed.reopen (ident : Ident) (hc : WellFormed container) (hv : WellFormed v) :
    WellFormed (Value.reopen ident container v) := by
  induction v using inductionOn with
  | leaf l =>
    unfold Value.reopen
    split
    · split
      · exact hc
      · exact .leaf
    all_goals simp_all
  | seq kind items ih =>
    have hv := wellFormed_seq.mp hv
    rw [Value.reopen, reopenItems_eq_map, wellFormed_seq]
    exact List.forall_mem_map.mpr fun w hw => ih w hw (hv w hw)
  | mapping kind entries ih =>
    rw [wellFormed_mapping_iff] at hv
    rw [Value.reopen, reopenEntries_eq_map, wellFormed_mapping_iff]
    exact hv.mapItems _ fun e he => (ih e he).2
  | set kind elements ih => exact hv
  | record table id ih => exact hv

theorem again?_nil (shape : Shape) (ident : Option Ident) : again? shape ident [] = none := by
  cases ident <;> rfl

theorem again?_eq_some {shape : Shape} {ident : Option Ident} {around : List Ident}
    (h : again? shape ident around = some v) : ∃ i, v = .leaf (.again shape i) := by
  obtain ⟨i, -, rfl⟩ := Option.map_eq_some_iff.mp h
  exact ⟨i, rfl⟩

theorem WellFormed.cut (around : List Ident) (hv : WellFormed v) : WellFormed (v.cut around) := by
  induction v using inductionOn generalizing around with
  | leaf l => exact hv
  | seq kind items ih =>
    have hv := wellFormed_seq.mp hv
    rw [Value.cut]
    split
    · rename_i w hw
      obtain ⟨i, rfl⟩ := again?_eq_some hw
      exact .leaf
    · rw [cutItems_eq_map, wellFormed_seq]
      exact List.forall_mem_map.mpr fun w hw => ih w hw _ (hv w hw)
  | mapping kind entries ih =>
    rw [Value.cut]
    split
    · rename_i w hw
      obtain ⟨i, rfl⟩ := again?_eq_some hw
      exact .leaf
    · rw [wellFormed_mapping_iff] at hv
      rw [cutEntries_eq_map, wellFormed_mapping_iff]
      exact hv.mapItems _ fun e he => (ih e he).2 _
  | set kind elements ih => exact hv
  | record table id ih => exact hv

theorem WellFormed.part (hc : WellFormed container) (hv : WellFormed v) :
    WellFormed (container.part v) := by
  unfold Value.part
  split
  · exact (hc.reopen _ hv).cut []
  · exact hv

end Loops

section Access
variable {container key item v : Value}

theorem wellFormed_getD {items : List Value} (h : ∀ v ∈ items, WellFormed v) (i : Nat) :
    WellFormed (items[i]?.getD (.leaf .null)) := by
  cases hi : items[i]? with
  | none => exact .leaf
  | some v => exact h v (List.mem_of_getElem? hi)

theorem WellFormed.item? (hc : WellFormed container) (h : container.item? key = .ok v) :
    WellFormed v := by
  unfold Value.item? at h
  split at h
  · obtain ⟨i, -, h⟩ := Except.bind_eq_ok h
    cases h
    exact hc.part (wellFormed_getD (wellFormed_seq.mp hc) i)
  · obtain ⟨found, hg, h⟩ := Except.bind_eq_ok h
    cases found with
    | none => cases h
    | some item =>
      cases h
      obtain ⟨e, he, rfl⟩ := Dictionary.mem_of_get? hg
      exact hc.part ((wellFormed_mapping_iff.mp hc).items e he)
  · obtain ⟨position, -, h⟩ := Except.bind_eq_ok h
    obtain ⟨i, -, h⟩ := Except.bind_eq_ok h
    cases h
    exact .leaf
  · obtain ⟨i, -, h⟩ := Except.bind_eq_ok h
    cases h
    exact .leaf
  · obtain ⟨i, -, h⟩ := Except.bind_eq_ok h
    cases h
    exact .leaf
  · split at h
    · cases h
    · obtain ⟨i, -, h⟩ := Except.bind_eq_ok h
      cases h
      exact .leaf
  · cases h

theorem WellFormed.append? {add : Value → Except Fault Value} (hc : WellFormed container)
    (hi : WellFormed item) (h : container.append? = .ok add) (ha : add item = .ok v) :
    WellFormed v := by
  unfold Value.append? at h
  split at h
  · cases h
    cases ha
    have hc := wellFormed_seq.mp hc
    refine wellFormed_seq.mpr (List.forall_mem_append.mpr ⟨hc, ?_⟩)
    simpa using hi
  · cases h
    obtain ⟨byte, -, ha⟩ := Except.bind_eq_ok ha
    cases ha
    exact .leaf
  · cases h

theorem WellFormed.put? (hc : WellFormed container) (hk : WellFormed key) (hi : WellFormed item)
    (h : container.put? key item = .ok v) : WellFormed v := by
  unfold Value.put? at h
  split at h
  · obtain ⟨i, -, h⟩ := Except.bind_eq_ok h
    cases h
    refine wellFormed_seq.mpr fun w hw => ?_
    rcases List.mem_or_eq_of_mem_set hw with hw | rfl
    · exact wellFormed_seq.mp hc w hw
    · exact hi
  · obtain ⟨result, hp, h⟩ := Except.bind_eq_ok h
    cases h
    exact wellFormed_mapping_iff.mpr ((wellFormed_mapping_iff.mp hc).put? hk hi hp)
  · obtain ⟨result, hp, h⟩ := Except.bind_eq_ok h
    cases h
    exact wellFormed_mapping_iff.mpr ((wellFormed_mapping_iff.mp hc).put? hk hi hp)
  · obtain ⟨position, -, h⟩ := Except.bind_eq_ok h
    obtain ⟨byte, -, h⟩ := Except.bind_eq_ok h
    obtain ⟨i, -, h⟩ := Except.bind_eq_ok h
    cases h
    exact .leaf
  · cases h

theorem removeEntry_sublist {entries rest : List (Value × Value)}
    (h : remove?.removeEntry key entries = .ok rest) : rest.Sublist entries := by
  obtain ⟨found, he, h⟩ := Except.bind_eq_ok h
  cases found with
  | none => cases h
  | some rest =>
    cases h
    exact Dictionary.erase?_sublist he

theorem WellFormed.remove? (hc : WellFormed container) (h : container.remove? key = .ok v) :
    WellFormed v := by
  unfold Value.remove? at h
  split at h
  · obtain ⟨i, -, h⟩ := Except.bind_eq_ok h
    cases h
    exact wellFormed_seq.mpr fun w hw => wellFormed_seq.mp hc w (List.mem_of_mem_eraseIdx hw)
  · obtain ⟨rest, hr, h⟩ := Except.bind_eq_ok h
    cases h
    exact wellFormed_mapping_iff.mpr ((wellFormed_mapping_iff.mp hc).sublist (removeEntry_sublist hr))
  · obtain ⟨rest, hr, h⟩ := Except.bind_eq_ok h
    cases h
    exact wellFormed_mapping_iff.mpr ((wellFormed_mapping_iff.mp hc).sublist (removeEntry_sublist hr))
  · obtain ⟨i, -, h⟩ := Except.bind_eq_ok h
    cases h
    exact .leaf
  · cases h

end Access

section Construction
variable {elements : List Value} {v : Value}

theorem ElementsApart.addTo (h : ElementsApart elements) (hw : ∀ e ∈ elements, WellFormed e)
    (hwv : WellFormed v) (hdv : Digestible v) :
    ElementsApart (addTo elements v) ∧ ∀ e ∈ Value.addTo elements v, WellFormed e := by
  by_cases hm : isAmong v elements = .equal
  · rw [Value.addTo, if_pos hm]
    exact ⟨h, hw⟩
  · rw [Value.addTo, if_neg hm]
    have hwa : ∀ e ∈ elements ++ [v], WellFormed e :=
      List.forall_mem_append.mpr ⟨hw, by simpa using hwv⟩
    obtain ⟨hd, hnodup⟩ := (elementsApart_iff hw).mp h
    refine ⟨(elementsApart_iff hwa).mpr ⟨List.forall_mem_append.mpr ⟨hd, by simpa using hdv⟩, ?_⟩, hwa⟩
    rw [hwv.isAmong_iff hdv hw hd] at hm
    rw [List.map_append, List.nodup_append]
    refine ⟨hnodup, List.nodup_singleton _, ?_⟩
    intro f hf g hg heq
    cases List.mem_singleton.mp hg
    exact hm (heq ▸ hf)

theorem isIdPart_snapshot (v : Value) : v.snapshot.isIdPart = v.isIdPart := by
  cases v <;> rfl

theorem text_of_newRecord {table id r : Value} (h : (newRecord table id).result = .ok r) :
    ∃ t, table = .leaf (.text t) := by
  unfold newRecord Entity.constructRecord at h
  split at h
  · exact ⟨_, rfl⟩
  · cases h

theorem WellFormed.newRecord {table id r : Value} (hw : WellFormed id)
    (h : (newRecord table id).result = .ok r) : WellFormed r := by
  obtain ⟨t, rfl⟩ := text_of_newRecord h
  obtain ⟨hi, hf, rfl⟩ := newRecord_eq_ok.mp h
  have copied := hw.copiedAs (not_circular_of_snapshotFault hf)
  exact .record copied.wellFormed copied.captured ((isIdPart_snapshot id).trans hi)

theorem leaf_of_newRawRecord {source r : Value} (h : (newRawRecord source).result = .ok r) :
    ∃ l, r = .leaf l := by
  have assigned : ∀ literal, ((Entity.blank .rawRecord).assign "_rid" (.leaf (.text literal))).built.result =
      .ok (.leaf (.rawRecord literal)) := fun _ => rfl
  unfold newRawRecord Entity.constructRaw at h
  split at h
  · exact ⟨_, Except.ok.inj (h.symm.trans (assigned _))⟩
  · exact ⟨_, Except.ok.inj (h.symm.trans (assigned _))⟩
  · exact ⟨_, Except.ok.inj (h.symm.trans (assigned _))⟩
  · cases h

theorem WellFormed.attribute? {name : String} {field : Value} (hw : WellFormed v)
    (h : v.attribute? name = .ok field) : WellFormed field := by
  have fields : ∀ e, Entity.ofValue? v = some e → ∀ n f, (n, f) ∈ e.written → WellFormed f := by
    intro e he n f hm
    cases v with
    | record table id =>
      cases he
      simp only [List.mem_cons, Prod.mk.injEq, List.not_mem_nil, or_false] at hm
      rcases hm with ⟨-, rfl⟩ | ⟨-, rfl⟩
      · exact .leaf
      · exact (wellFormed_record.mp hw).1
    | leaf l =>
      cases l with
      | rawRecord literal =>
        cases he
        simp only [List.mem_cons, Prod.mk.injEq, List.not_mem_nil, or_false] at hm
        exact hm.2 ▸ .leaf
      | _ => cases he
    | _ => cases he
  unfold Value.attribute? at h
  split at h
  · rename_i f hf
    cases h
    obtain ⟨e, he, hf⟩ := Option.bind_eq_some_iff.mp hf
    unfold Entity.attribute? Entity.field? at hf
    split at hf
    · exact fields e he _ _ (mem_of_lookup hf)
    · exact fields e he _ _ (mem_of_lookup hf)
  · cases h

end Construction

end Value
end RecordLiteral
