import Mathlib.Data.List.Nodup
import RecordLiteral.Dictionary
import RecordLiteral.Proofs.Agreement

/-! # Lookups

In a dictionary whose keys are told apart there is at most one entry for a key, known by
the plain form of the key alone. Putting and erasing entries keep the keys apart.
-/
namespace RecordLiteral.Dictionary

open Value

/-- What every dictionary guarantees of its keys. -/
structure Keyed (entries : List (Value × Value)) : Prop where
  apart : KeysApart entries
  wellFormed : ∀ e ∈ entries, WellFormed e.1

section Keyed
variable {entries before after : List (Value × Value)} {entry other : Value × Value}

theorem keyed_iff : Keyed entries ↔ (∀ e ∈ entries, WellFormed e.1 ∧ Digestible e.1) ∧
    (entries.map fun e => e.1.plainForm).Nodup := by
  constructor
  · intro h
    obtain ⟨hd, hnodup⟩ := (keysApart_iff h.wellFormed).mp h.apart
    exact ⟨fun e he => ⟨h.wellFormed e he, hd e he⟩, hnodup⟩
  · rintro ⟨h, hnodup⟩
    have hw : ∀ e ∈ entries, WellFormed e.1 := fun e he => (h e he).1
    exact ⟨(keysApart_iff hw).mpr ⟨fun e he => (h e he).2, hnodup⟩, hw⟩

theorem keyed_nil : Keyed [] := keyed_iff.mpr ⟨by simp, List.nodup_nil⟩

theorem Keyed.digestible (h : Keyed entries) : ∀ e ∈ entries, Digestible e.1 := h.apart.digestible

theorem Keyed.sublist {rest : List (Value × Value)} (h : Keyed entries)
    (hs : rest.Sublist entries) : Keyed rest := by
  obtain ⟨hk, hnodup⟩ := keyed_iff.mp h
  exact keyed_iff.mpr ⟨fun e he => hk e (hs.subset he), (hs.map _).nodup hnodup⟩

theorem Keyed.unique (h : Keyed entries) (he : entry ∈ entries) (ho : other ∈ entries)
    (hf : entry.1.plainForm = other.1.plainForm) : entry = other :=
  List.inj_on_of_nodup_map (keyed_iff.mp h).2 he ho hf

theorem Keyed.append (h : Keyed entries) (hw : WellFormed entry.1) (hd : Digestible entry.1)
    (hnew : ∀ e ∈ entries, e.1.plainForm ≠ entry.1.plainForm) : Keyed (entries ++ [entry]) := by
  obtain ⟨hk, hnodup⟩ := keyed_iff.mp h
  refine keyed_iff.mpr ⟨?_, ?_⟩
  · intro e he
    rcases List.mem_append.mp he with he | he
    · exact hk e he
    · cases List.mem_singleton.mp he
      exact ⟨hw, hd⟩
  · rw [List.map_append, List.nodup_append]
    refine ⟨hnodup, List.nodup_singleton _, ?_⟩
    intro f hf g hg
    obtain ⟨e, he, rfl⟩ := List.mem_map.mp hf
    cases List.mem_singleton.mp hg
    exact hnew e he

theorem Keyed.replace {item : Value} (h : Keyed (before ++ entry :: after)) :
    Keyed (before ++ (entry.1, item) :: after) := by
  obtain ⟨hk, hnodup⟩ := keyed_iff.mp h
  refine keyed_iff.mpr ⟨?_, by simpa using hnodup⟩
  intro e he
  rcases List.mem_append.mp he with he | he
  · exact hk e (List.mem_append_left _ he)
  · rcases List.mem_cons.mp he with rfl | he
    · exact hk entry (by simp)
    · exact hk e (List.mem_append_right _ (List.mem_cons_of_mem _ he))

end Keyed

section Operations
variable {entries : List (Value × Value)} {key : Value}

theorem locate_cases (h : Keyed entries) (hw : WellFormed key) (hd : Digestible key) :
    (locate key entries = .ok none ∧ ∀ e ∈ entries, e.1.plainForm ≠ key.plainForm) ∨
      ∃ before entry after, entries = before ++ entry :: after ∧
        entry.1.plainForm = key.plainForm ∧ locate key entries = .ok (some before.length) := by
  induction entries with
  | nil => exact Or.inl ⟨rfl, by simp⟩
  | cons e rest ih =>
    have hwe := h.wellFormed e List.mem_cons_self
    have hde := h.digestible e List.mem_cons_self
    have hiff := hwe.isFor_iff hw hde hd
    cases hv : isFor e.1 key with
    | equal => exact Or.inr ⟨[], e, rest, rfl, hiff.mp hv, by simp [locate, hv]⟩
    | signals => exact absurd hv (hwe.isFor_ne_signals hw hde hd)
    | unequal =>
      have hne : e.1.plainForm ≠ key.plainForm := by
        rw [Ne, ← hiff, hv]
        simp
      rcases ih (h.sublist (List.sublist_cons_self e rest)) with ⟨hl, hnone⟩ | ⟨before, entry, after, rfl, hf, hl⟩
      · refine Or.inl ⟨by simp [locate, hv, hl, Except.map], ?_⟩
        exact List.forall_mem_cons.mpr ⟨hne, hnone⟩
      · exact Or.inr ⟨e :: before, entry, after, rfl, hf, by simp [locate, hv, hl, Except.map]⟩

theorem index?_eq_locate (hd : Digestible key) : index? entries key = locate key entries := by
  rw [index?, hd]

theorem digestible_of_index? {place : Option Nat} (h : index? entries key = .ok place) :
    Digestible key := by
  unfold index? at h
  split at h
  · cases h
  · assumption

theorem get?_of_index? {place : Option Nat} (h : index? entries key = .ok place) :
    get? entries key = .ok (place.bind fun i => entries[i]?.map (·.2)) := by
  rw [get?, h]
  rfl

theorem put?_of_index?_none {item : Value} (h : index? entries key = .ok none) :
    put? entries key item = .ok (entries ++ [(key, item)]) := by
  rw [put?, h]
  rfl

theorem put?_of_index?_some {item : Value} {i : Nat} (h : index? entries key = .ok (some i)) :
    put? entries key item = .ok (entries.modify i fun entry => (entry.1, item)) := by
  rw [put?, h]
  rfl

theorem modify_middle (before after : List (Value × Value)) (entry : Value × Value)
    (f : Value × Value → Value × Value) :
    (before ++ entry :: after).modify before.length f = before ++ f entry :: after := by
  induction before with
  | nil => rfl
  | cons e rest ih => simp [ih]

/-- A lookup finds the item under a key with the plain form of the one sought. -/
theorem get?_eq_some {item : Value} (h : Keyed entries) (hw : WellFormed key)
    (hd : Digestible key) : get? entries key = .ok (some item) ↔
      ∃ e ∈ entries, e.1.plainForm = key.plainForm ∧ e.2 = item := by
  rcases locate_cases h hw hd with ⟨hl, hnone⟩ | ⟨before, entry, after, rfl, hf, hl⟩
  · rw [get?_of_index? ((index?_eq_locate hd).trans hl)]
    constructor
    · intro hg
      cases hg
    · rintro ⟨e, he, hf, -⟩
      exact absurd hf (hnone e he)
  · rw [get?_of_index? ((index?_eq_locate hd).trans hl)]
    have hmem : entry ∈ before ++ entry :: after := by simp
    constructor
    · intro hg
      exact ⟨entry, hmem, hf, by simpa using hg⟩
    · rintro ⟨e, he, hfe, rfl⟩
      rw [h.unique he hmem (hfe.trans hf.symm)]
      simp

/-- Putting an item adds an entry, or replaces the item of the one that is there. -/
theorem put?_cases (item : Value) (h : Keyed entries) (hw : WellFormed key) (hd : Digestible key) :
    ((∀ e ∈ entries, e.1.plainForm ≠ key.plainForm) ∧
        put? entries key item = .ok (entries ++ [(key, item)])) ∨
      ∃ before entry after, entries = before ++ entry :: after ∧
        entry.1.plainForm = key.plainForm ∧
        put? entries key item = .ok (before ++ (entry.1, item) :: after) := by
  rcases locate_cases h hw hd with ⟨hl, hnone⟩ | ⟨before, entry, after, rfl, hf, hl⟩
  · exact Or.inl ⟨hnone, put?_of_index?_none ((index?_eq_locate hd).trans hl)⟩
  · refine Or.inr ⟨before, entry, after, rfl, hf, ?_⟩
    rw [put?_of_index?_some ((index?_eq_locate hd).trans hl), modify_middle]

theorem digestible_of_put? {item : Value} {result : List (Value × Value)}
    (hp : put? entries key item = .ok result) : Digestible key := by
  cases hi : index? entries key with
  | ok place => exact digestible_of_index? hi
  | error fault =>
    rw [put?, hi] at hp
    cases hp

theorem put?_keyed {item : Value} {result : List (Value × Value)} (h : Keyed entries)
    (hw : WellFormed key) (hp : put? entries key item = .ok result) : Keyed result := by
  have hd := digestible_of_put? hp
  rcases put?_cases item h hw hd with ⟨hnone, ho⟩ | ⟨before, entry, after, rfl, hf, ho⟩
  · cases ho.symm.trans hp
    exact h.append hw hd hnone
  · cases ho.symm.trans hp
    exact h.replace

theorem put?_items {item : Value} {result : List (Value × Value)} (h : Keyed entries)
    (hw : WellFormed key) (hp : put? entries key item = .ok result) :
    ∀ e ∈ result, e.2 = item ∨ e ∈ entries := by
  have hd := digestible_of_put? hp
  intro e he
  rcases put?_cases item h hw hd with ⟨-, ho⟩ | ⟨before, entry, after, rfl, -, ho⟩
  · cases ho.symm.trans hp
    rcases List.mem_append.mp he with he | he
    · exact Or.inr he
    · cases List.mem_singleton.mp he
      exact Or.inl rfl
  · cases ho.symm.trans hp
    rcases List.mem_append.mp he with he | he
    · exact Or.inr (List.mem_append_left _ he)
    · rcases List.mem_cons.mp he with rfl | he
      · exact Or.inl rfl
      · exact Or.inr (List.mem_append_right _ (List.mem_cons_of_mem _ he))

theorem mem_of_get? {item : Value} (h : get? entries key = .ok (some item)) :
    ∃ e ∈ entries, e.2 = item := by
  cases hi : index? entries key with
  | error fault =>
    rw [get?, hi] at h
    cases h
  | ok place =>
    rw [get?_of_index? hi, Except.ok.injEq, Option.bind_eq_some_iff] at h
    obtain ⟨i, -, h⟩ := h
    obtain ⟨e, he, h⟩ := Option.map_eq_some_iff.mp h
    exact ⟨e, List.mem_of_getElem? he, h⟩

theorem erase?_sublist {rest : List (Value × Value)} (h : erase? entries key = .ok (some rest)) :
    rest.Sublist entries := by
  cases hi : index? entries key with
  | error fault =>
    rw [erase?, hi] at h
    cases h
  | ok place =>
    have he : erase? entries key = .ok (place.map entries.eraseIdx) := by
      rw [erase?, hi]
      rfl
    rw [he, Except.ok.injEq, Option.map_eq_some_iff] at h
    obtain ⟨i, -, rfl⟩ := h
    exact List.eraseIdx_sublist entries i

/-- What is put under a key is found under every key of its plain form. -/
theorem get?_put? {item other : Value} (h : Keyed entries) (hw : WellFormed key)
    (hd : Digestible key) (hwo : WellFormed other) (hdo : Digestible other)
    (hf : key.plainForm = other.plainForm) :
    ∃ result, put? entries key item = .ok result ∧ get? result other = .ok (some item) := by
  rcases put?_cases item h hw hd with ⟨hnone, hp⟩ | ⟨before, entry, after, rfl, hfe, hp⟩
  · refine ⟨_, hp, (get?_eq_some (put?_keyed h hw hp) hwo hdo).mpr ?_⟩
    exact ⟨(key, item), by simp, hf, rfl⟩
  · refine ⟨_, hp, (get?_eq_some (put?_keyed h hw hp) hwo hdo).mpr ?_⟩
    exact ⟨(entry.1, item), by simp, hfe.trans hf, rfl⟩

/-- A lookup answers whenever the key can be digested. -/
theorem get?_eq_none (h : Keyed entries) (hw : WellFormed key) (hd : Digestible key) :
    get? entries key = .ok none ↔ ∀ e ∈ entries, e.1.plainForm ≠ key.plainForm := by
  rcases locate_cases h hw hd with ⟨hl, hnone⟩ | ⟨before, entry, after, rfl, hf, hl⟩
  · rw [get?_of_index? ((index?_eq_locate hd).trans hl)]
    exact ⟨fun _ => hnone, fun _ => rfl⟩
  · rw [get?_of_index? ((index?_eq_locate hd).trans hl)]
    constructor
    · intro hg
      simp at hg
    · intro hnone
      exact absurd hf (hnone entry (by simp))

theorem get?_of_not_digestible {fault : Fault} (h : key.digestFault = some fault) :
    get? entries key = .error fault := by
  rw [get?, index?, h]
  rfl

/-- A lookup depends on the entries for keys of the plain form sought, and on no others. -/
theorem get?_congr {others : List (Value × Value)} (h : Keyed entries) (ho : Keyed others)
    (hw : WellFormed key) (hd : Digestible key)
    (hsame : ∀ e : Value × Value, e.1.plainForm = key.plainForm → (e ∈ entries ↔ e ∈ others)) :
    get? entries key = get? others key := by
  rcases locate_cases h hw hd with ⟨hl, hnone⟩ | ⟨before, entry, after, hsplit, hf, hl⟩
  · have hother : ∀ e ∈ others, e.1.plainForm ≠ key.plainForm :=
      fun e he heq => hnone e ((hsame e heq).mpr he) heq
    rw [(get?_eq_none h hw hd).mpr hnone, (get?_eq_none ho hw hd).mpr hother]
  · have hmem : entry ∈ entries := hsplit ▸ by simp
    rw [(get?_eq_some h hw hd).mpr ⟨entry, hmem, hf, rfl⟩,
      (get?_eq_some ho hw hd).mpr ⟨entry, (hsame entry hf).mp hmem, hf, rfl⟩]

/-- Storing under a key changes nothing for other keys. -/
theorem get?_put?_ne {item other : Value} {result : List (Value × Value)} (h : Keyed entries)
    (hw : WellFormed key) (hp : put? entries key item = .ok result) (hwo : WellFormed other)
    (hdo : Digestible other) (hne : key.plainForm ≠ other.plainForm) :
    get? result other = get? entries other := by
  refine get?_congr (put?_keyed h hw hp) h hwo hdo fun e he => ?_
  have hek : e.1.plainForm ≠ key.plainForm := fun heq => hne (heq.symm.trans he)
  rcases put?_cases item h hw (digestible_of_put? hp) with
    ⟨-, ho⟩ | ⟨before, entry, after, rfl, hf, ho⟩
  · cases ho.symm.trans hp
    have hnew : e ≠ (key, item) := by
      rintro rfl
      exact hek rfl
    simp [hnew]
  · cases ho.symm.trans hp
    have hold : e ≠ entry := by
      rintro rfl
      exact hek hf
    have hnew : e ≠ (entry.1, item) := by
      rintro rfl
      exact hek hf
    simp [hold, hnew]

theorem take?_of_index?_none (h : index? entries key = .ok none) :
    take? entries key = .error (missing key) := by
  unfold take?
  split
  · rfl
  · rw [get?_of_index? h, erase?, h]
    rfl

theorem take?_of_index?_some {before after : List (Value × Value)} {entry : Value × Value}
    (h : index? (before ++ entry :: after) key = .ok (some before.length)) :
    take? (before ++ entry :: after) key = .ok (entry.2, before ++ after) := by
  have hitem : ((some before.length).bind fun i => (before ++ entry :: after)[i]?.map (·.2)) =
      some entry.2 := by simp
  have hrest : (before ++ entry :: after).eraseIdx before.length = before ++ after := by
    simp [List.eraseIdx_append_of_length_le]
  rw [take?, if_neg (by simp), get?_of_index? h, hitem, erase?, h, ← hrest]
  rfl

theorem digestible_of_take? {item : Value} {rest : List (Value × Value)}
    (ht : take? entries key = .ok (item, rest)) : Digestible key := by
  cases hi : index? entries key with
  | ok place => exact digestible_of_index? hi
  | error fault =>
    rw [take?, get?, hi] at ht
    split at ht <;> cases ht

/-- What is taken out is one entry, for a key of the plain form sought. -/
theorem take?_cases {item : Value} {rest : List (Value × Value)} (h : Keyed entries)
    (hw : WellFormed key) (ht : take? entries key = .ok (item, rest)) :
    ∃ before entry after, entries = before ++ entry :: after ∧
      entry.1.plainForm = key.plainForm ∧ entry.2 = item ∧ before ++ after = rest := by
  have hd := digestible_of_take? ht
  rcases locate_cases h hw hd with ⟨hl, -⟩ | ⟨before, entry, after, rfl, hf, hl⟩
  · cases (take?_of_index?_none ((index?_eq_locate hd).trans hl)).symm.trans ht
  · cases (take?_of_index?_some ((index?_eq_locate hd).trans hl)).symm.trans ht
    exact ⟨before, entry, after, rfl, hf, rfl, rfl⟩

theorem take?_sublist {item : Value} {rest : List (Value × Value)} (h : Keyed entries)
    (hw : WellFormed key) (ht : take? entries key = .ok (item, rest)) : rest.Sublist entries := by
  obtain ⟨before, entry, after, rfl, -, -, rfl⟩ := take?_cases h hw ht
  exact (List.sublist_cons_self entry after).append_left before

theorem get?_take?_ne {item other : Value} {rest : List (Value × Value)} (h : Keyed entries)
    (hw : WellFormed key) (ht : take? entries key = .ok (item, rest)) (hwo : WellFormed other)
    (hdo : Digestible other) (hne : key.plainForm ≠ other.plainForm) :
    get? rest other = get? entries other := by
  refine get?_congr (h.sublist (take?_sublist h hw ht)) h hwo hdo fun e he => ?_
  obtain ⟨before, entry, after, rfl, hf, -, rfl⟩ := take?_cases h hw ht
  have hold : e ≠ entry := by
    rintro rfl
    exact hne (hf.symm.trans he)
  simp [hold]

theorem locate_mapItems (f : Value → Value) :
    locate key (entries.map fun e => (e.1, f e.2)) = locate key entries := by
  induction entries with
  | nil => rfl
  | cons e rest ih => simp only [List.map_cons, locate, ih]

theorem get?_mapItems (f : Value → Value) : get? (entries.map fun e => (e.1, f e.2)) key =
    (get? entries key).map (Option.map f) := by
  have hindex : index? (entries.map fun e => (e.1, f e.2)) key = index? entries key := by
    simp only [index?, locate_mapItems]
  cases hi : index? entries key with
  | error fault =>
    rw [get?, get?, hindex, hi]
    rfl
  | ok place =>
    rw [get?_of_index? (hindex.trans hi), get?_of_index? hi]
    cases place <;> simp [Except.map, Option.map_map, Function.comp_def]

end Operations

end RecordLiteral.Dictionary
