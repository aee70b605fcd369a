import RecordLiteral.Workspace
import RecordLiteral.Proofs.Contents

/-! # Updates

A change of an object in place does not reach what can be digested, so keys and elements
stay as they are. In what a record has captured it reaches byte buffers and nothing else.
-/
namespace RecordLiteral.Value

mutual

def buffers : Value → List (Ident × List UInt8)
  | .leaf (.buffer ident data) => [(ident, data)]
  | .leaf _ => []
  | .seq _ items => buffersIn items
  | .mapping _ entries => buffersInEntries entries
  | .set _ elements => buffersIn elements
  | .record _ id => buffers id

def buffersIn : List Value → List (Ident × List UInt8)
  | [] => []
  | v :: rest => buffers v ++ buffersIn rest

def buffersInEntries : List (Value × Value) → List (Ident × List UInt8)
  | [] => []
  | (key, item) :: rest => buffers key ++ buffers item ++ buffersInEntries rest

end

mutual

/-- A value with other bytes in its buffers. -/
def refill (f : Ident → List UInt8 → List UInt8) : Value → Value
  | .leaf (.buffer ident data) => .leaf (.buffer ident (f ident data))
  | .leaf l => .leaf l
  | .seq kind items => .seq kind (refillItems f items)
  | .mapping kind entries => .mapping kind (refillEntries f entries)
  | .set kind elements => .set kind (refillItems f elements)
  | .record table id => .record table (refill f id)

def refillItems (f : Ident → List UInt8 → List UInt8) : List Value → List Value
  | [] => []
  | v :: rest => refill f v :: refillItems f rest

def refillEntries (f : Ident → List UInt8 → List UInt8) :
    List (Value × Value) → List (Value × Value)
  | [] => []
  | (key, item) :: rest => (refill f key, refill f item) :: refillEntries f rest

end

section Refill
variable {f : Ident → List UInt8 → List UInt8} {v : Value}

@[simp] theorem buffersIn_eq_flatMap (items : List Value) :
    buffersIn items = items.flatMap buffers := by
  induction items with
  | nil => rfl
  | cons v rest ih => simp [buffersIn, ih]

@[simp] theorem buffersInEntries_eq_flatMap (entries : List (Value × Value)) :
    buffersInEntries entries = entries.flatMap fun e => e.1.buffers ++ e.2.buffers := by
  induction entries with
  | nil => rfl
  | cons e rest ih => simp [buffersInEntries, ih]

@[simp] theorem refillItems_eq_map (items : List Value) :
    refillItems f items = items.map (refill f) := by
  induction items with
  | nil => rfl
  | cons v rest ih => simp [refillItems, ih]

@[simp] theorem refillEntries_eq_map (entries : List (Value × Value)) :
    refillEntries f entries = entries.map fun e => (refill f e.1, refill f e.2) := by
  induction entries with
  | nil => rfl
  | cons e rest ih => simp [refillEntries, ih]

theorem map_eq_self_iff {α : Type} {g : α → α} {l : List α} :
    l.map g = l ↔ ∀ x ∈ l, g x = x := by
  induction l with
  | nil => simp
  | cons x rest ih => simp [ih]

/-- A value stays as it is just when every buffer in it gets the bytes that it has. -/
theorem refill_eq_self_iff : refill f v = v ↔ ∀ b ∈ v.buffers, f b.1 b.2 = b.2 := by
  induction v using inductionOn with
  | leaf l => cases l <;> simp [refill, buffers]
  | seq kind items ih =>
    simp only [refill, refillItems_eq_map, seq.injEq, true_and, map_eq_self_iff, buffers,
      buffersIn_eq_flatMap, List.forall_mem_flatMap]
    exact forall₂_congr ih
  | mapping kind entries ih =>
    simp only [refill, refillEntries_eq_map, mapping.injEq, true_and, map_eq_self_iff, buffers,
      buffersInEntries_eq_flatMap, List.forall_mem_flatMap, List.forall_mem_append]
    refine forall₂_congr fun e he => ?_
    rw [Prod.ext_iff, (ih e he).1, (ih e he).2]
  | set kind elements ih =>
    simp only [refill, refillItems_eq_map, set.injEq, true_and, map_eq_self_iff, buffers,
      buffersIn_eq_flatMap, List.forall_mem_flatMap]
    exact forall₂_congr ih
  | record table id ih => simp [refill, buffers, ih]

theorem refill_refill (f g : Ident → List UInt8 → List UInt8) (v : Value) :
    refill f (refill g v) = refill (fun ident data => f ident (g ident data)) v := by
  induction v using inductionOn with
  | leaf l => cases l <;> rfl
  | seq kind items ih =>
    simp only [refill, refillItems_eq_map, List.map_map, Function.comp_def]
    rw [List.map_congr_left ih]
  | mapping kind entries ih =>
    simp only [refill, refillEntries_eq_map, List.map_map, mapping.injEq, true_and]
    refine List.map_congr_left fun e he => ?_
    simp [(ih e he).1, (ih e he).2]
  | set kind elements ih =>
    simp only [refill, refillItems_eq_map, List.map_map, Function.comp_def]
    rw [List.map_congr_left ih]
  | record table id ih => rw [refill, refill, refill, ih]

theorem isIdPart_refill (f : Ident → List UInt8 → List UInt8) (v : Value) :
    (refill f v).isIdPart = v.isIdPart := by
  cases v with
  | leaf l => cases l <;> rfl
  | _ => rfl

theorem Captured.refill (h : Captured v) : Captured (refill f v) := by
  induction v using inductionOn with
  | leaf l =>
    have hl := captured_leaf.mp h
    cases l with
    | again shape ident => cases hl
    | _ => exact .leaf rfl
  | seq kind items ih =>
    cases h with
    | seq h =>
      rw [Value.refill, refillItems_eq_map]
      exact .seq (List.forall_mem_map.mpr fun w hw => ih w hw (h w hw))
  | mapping kind entries ih =>
    cases h with
    | mapping h =>
      rw [Value.refill, refillEntries_eq_map]
      exact .mapping (List.forall_mem_map.mpr fun e he => (ih e he).2 (h e he))
  | set kind elements ih =>
    cases h with
    | set h =>
      rw [Value.refill, refillItems_eq_map]
      exact .set (List.forall_mem_map.mpr fun w hw => ih w hw (h w hw))
  | record table id ih => exact .record

end Refill

section Fixed
variable {v : Value}

theorem buffers_eq_nil (hw : WellFormed v) :
    (Digestible v → v.buffers = []) ∧ (Freezable v → v.buffers = []) := by
  induction v using inductionOn with
  | leaf l =>
    have hl : l.digestFault = none → (Value.leaf l).buffers = [] := by
      cases l <;> simp [Leaf.digestFault, buffers]
    exact ⟨fun hd => hl (digestible_leaf.mp hd), fun hf => hl hf.2⟩
  | seq kind items ih =>
    have hw := wellFormed_seq.mp hw
    simp only [buffers, buffersIn_eq_flatMap, List.flatMap_eq_nil_iff]
    constructor
    · intro hd v hv
      exact (ih v hv (hw v hv)).1 (hd.tuple.2 v hv)
    · intro hf v hv
      exact (ih v hv (hw v hv)).2 (freezable_seq.mp hf v hv)
  | mapping kind entries ih =>
    obtain ⟨apart, hk, hi⟩ := wellFormed_mapping.mp hw
    refine ⟨fun hd => absurd hd not_digestible_mapping, fun hf => ?_⟩
    simp only [buffers, buffersInEntries_eq_flatMap, List.flatMap_eq_nil_iff, List.append_eq_nil_iff]
    intro e he
    obtain ⟨hd, hf⟩ := freezable_mapping.mp hf e he
    exact ⟨((ih e he).1 (hk e he)).1 hd, ((ih e he).2 (hi e he)).2 hf⟩
  | set kind elements ih =>
    obtain ⟨apart, hi⟩ := wellFormed_set.mp hw
    have hnil : (Value.set kind elements).buffers = [] := by
      simp only [buffers, buffersIn_eq_flatMap, List.flatMap_eq_nil_iff]
      intro v hv
      exact (ih v hv (hi v hv)).1 (apart.digestible v hv)
    exact ⟨fun _ => hnil, fun _ => hnil⟩
  | record table id ih =>
    have hid := (ih (wellFormed_record.mp hw).1).2
    rw [digestible_record, freezable_record]
    exact ⟨hid, hid⟩

theorem refill_of_digestible {f : Ident → List UInt8 → List UInt8} (hw : WellFormed v)
    (hd : Digestible v) : refill f v = v := by
  rw [refill_eq_self_iff, (buffers_eq_nil hw).1 hd]
  simp

/-- No object in what can be digested can be changed in place. -/
theorem substitute_of_digestible (handle : Handle) (content : Value) (hw : WellFormed v) :
    (Digestible v → substitute handle content v = v) ∧
      (Freezable v → Captured v → substitute handle content v = v) := by
  induction v using inductionOn with
  | leaf l =>
    have hl : l.digestFault = none → substitute handle content (.leaf l) = .leaf l := by
      cases l <;> simp [Leaf.digestFault, substitute, handle?]
    exact ⟨fun hd => hl (digestible_leaf.mp hd), fun hf _ => hl hf.2⟩
  | seq kind items ih =>
    have hi := wellFormed_seq.mp hw
    constructor
    · intro hd
      obtain ⟨⟨ident, rfl⟩, hdi⟩ := hd.tuple
      have hitems : items.map (substitute handle content) = items :=
        map_eq_self_iff.mpr fun v hv => (ih v hv (hi v hv)).1 (hdi v hv)
      rw [substitute, if_neg (by simp [handle?]), substituteItems_eq_map, hitems]
    · intro hf hc
      cases hc with
      | seq hc =>
        have hf := freezable_seq.mp hf
        have hitems : items.map (substitute handle content) = items :=
          map_eq_self_iff.mpr fun v hv => (ih v hv (hi v hv)).2 (hf v hv) (hc v hv)
        rw [substitute, if_neg (by simp [handle?]), substituteItems_eq_map, hitems]
  | mapping kind entries ih =>
    obtain ⟨apart, hk, hi⟩ := wellFormed_mapping.mp hw
    refine ⟨fun hd => absurd hd not_digestible_mapping, fun hf hc => ?_⟩
    cases hc with
    | mapping hc =>
      have hf := freezable_mapping.mp hf
      rw [substitute, if_neg (by simp [handle?]), substituteEntries_eq_map, map_eq_self_iff.mpr]
      intro e he
      have hkey := ((ih e he).1 (hk e he)).1 (hf e he).1
      have hitem := ((ih e he).2 (hi e he)).2 (hf e he).2 (hc e he)
      rw [hkey, hitem]
  | set kind elements ih =>
    obtain ⟨apart, hi⟩ := wellFormed_set.mp hw
    have hself : substitute handle content (.set kind elements) = .set kind elements := by
      rw [substitute, substituteItems_eq_map, map_eq_self_iff.mpr]
      intro v hv
      exact (ih v hv (hi v hv)).1 (apart.digestible v hv)
    exact ⟨fun _ => hself, fun _ _ => hself⟩
  | record table id ih =>
    obtain ⟨hid, hc, -⟩ := wellFormed_record.mp hw
    have hself : Freezable id → substitute handle content (.record table id) = .record table id := by
      intro hf
      rw [substitute, (ih hid).2 hf hc]
    rw [digestible_record, freezable_record]
    exact ⟨hself, fun hf _ => hself hf⟩

end Fixed

/-- How the bytes of a buffer change when an object gets a new content. -/
def rewriting : Value → Ident → List UInt8 → List UInt8
  | .leaf (.buffer written data), ident, old => if ident = written then data else old
  | _, _, old => old

section Captured
variable {content v : Value} {handle : Handle}

theorem rewriting_of_not_buffer (h : ∀ ident data, content ≠ .leaf (.buffer ident data))
    (ident : Ident) (data : List UInt8) : content.rewriting ident data = data := by
  unfold rewriting
  split
  · exact absurd rfl (h _ _)
  · rfl

theorem buffer_of_handle? {ident : Ident} (h : content.handle? = some (.buffer ident)) :
    ∃ data, content = .leaf (.buffer ident data) := by
  unfold handle? at h
  split at h <;> simp_all

theorem substitute_leaf {l : Leaf} (hc : content.handle? = some handle) (hl : l.copyFault = none) :
    substitute handle content (.leaf l) = refill content.rewriting (.leaf l) := by
  rw [substitute]
  split
  · rename_i h
    cases l with
    | buffer ident old =>
      cases Option.some.inj h
      obtain ⟨data, rfl⟩ := buffer_of_handle? hc
      simp [refill, rewriting]
    | again shape ident => cases hl
    | _ => cases h
  · rename_i h
    cases l with
    | buffer ident old =>
      have hr : content.rewriting ident old = old := by
        unfold rewriting
        split
        · rename_i written data
          rw [if_neg]
          rintro rfl
          exact h hc
        · rfl
      rw [refill, hr]
    | _ => rfl

/-- In what is captured, a change reaches the byte buffers only. -/
theorem substitute_eq_refill (hc : content.handle? = some handle) (hw : WellFormed v)
    (hv : Captured v) : substitute handle content v = refill content.rewriting v := by
  induction v using inductionOn with
  | leaf l => exact substitute_leaf hc (captured_leaf.mp hv)
  | seq kind items ih =>
    have hi := wellFormed_seq.mp hw
    cases hv with
    | seq hv =>
      have hitems : items.map (substitute handle content) = items.map (refill content.rewriting) :=
        List.map_congr_left fun v h => ih v h (hi v h) (hv v h)
      rw [substitute, if_neg (by simp [handle?]), substituteItems_eq_map, refill, refillItems_eq_map,
        hitems]
  | mapping kind entries ih =>
    obtain ⟨apart, hk, hi⟩ := wellFormed_mapping.mp hw
    cases hv with
    | mapping hv =>
      rw [substitute, if_neg (by simp [handle?]), substituteEntries_eq_map, refill,
        refillEntries_eq_map, List.map_congr_left fun e he => ?_]
      have hd := apart.digestible e he
      rw [(substitute_of_digestible handle content (hk e he)).1 hd, refill_of_digestible (hk e he) hd,
        (ih e he).2 (hi e he) (hv e he)]
  | set kind elements ih =>
    obtain ⟨apart, hi⟩ := wellFormed_set.mp hw
    rw [substitute, substituteItems_eq_map, refill, refillItems_eq_map,
      List.map_congr_left fun v hv => ?_]
    have hd := apart.digestible v hv
    rw [(substitute_of_digestible handle content (hi v hv)).1 hd, refill_of_digestible (hi v hv) hd]
  | record table id ih =>
    obtain ⟨hid, hcap, -⟩ := wellFormed_record.mp hw
    rw [substitute, refill, ih hid hcap]

theorem WellFormed.substitute (hc : content.handle? = some handle) (hwc : WellFormed content)
    (hw : WellFormed v) : WellFormed (substitute handle content v) := by
  induction v using inductionOn with
  | leaf l =>
    rw [Value.substitute]
    split
    · exact hwc
    · exact .leaf
  | seq kind items ih =>
    have hw := wellFormed_seq.mp hw
    rw [Value.substitute]
    split
    · exact hwc
    · rw [substituteItems_eq_map, wellFormed_seq]
      exact List.forall_mem_map.mpr fun v hv => ih v hv (hw v hv)
  | mapping kind entries ih =>
    obtain ⟨apart, hk, -⟩ := wellFormed_mapping.mp hw
    rw [Value.substitute]
    split
    · exact hwc
    · have keys : (entries.map fun e =>
            (Value.substitute handle content e.1, Value.substitute handle content e.2)) =
          entries.map fun e => (e.1, Value.substitute handle content e.2) := by
        refine List.map_congr_left fun e he => ?_
        rw [(substitute_of_digestible handle content (hk e he)).1 (apart.digestible e he)]
      rw [Dictionary.wellFormed_mapping_iff] at hw
      rw [substituteEntries_eq_map, keys, Dictionary.wellFormed_mapping_iff]
      exact hw.mapItems _ fun e he => (ih e he).2
  | set kind elements ih =>
    obtain ⟨apart, hi⟩ := wellFormed_set.mp hw
    have helements : elements.map (Value.substitute handle content) = elements :=
      map_eq_self_iff.mpr fun v hv =>
        (substitute_of_digestible handle content (hi v hv)).1 (apart.digestible v hv)
    rw [Value.substitute, substituteItems_eq_map, helements]
    exact hw
  | record table id ih =>
    obtain ⟨hid, hcap, hpart⟩ := wellFormed_record.mp hw
    have hs := substitute_eq_refill hc hid hcap
    have hwid := ih hid
    rw [Value.substitute]
    refine .record hwid ?_ ?_
    · rw [hs]
      exact hcap.refill
    · rw [hs, isIdPart_refill, hpart]

theorem WellFormed.update (hwc : WellFormed content) (hw : WellFormed v) :
    WellFormed (update content v) := by
  unfold Value.update
  split
  · exact hw
  · exact hwc.substitute ‹_› hw

theorem WellFormed.renew (hwc : WellFormed content) (hw : WellFormed v) :
    WellFormed (renew content v) :=
  (hwc.update hw).cut []

theorem update_of_digestible (content : Value) (hw : WellFormed v) (hd : Digestible v) :
    update content v = v := by
  unfold update
  split
  · rfl
  · exact (substitute_of_digestible _ content hw).1 hd

theorem cut_record (around : List Ident) (table : String) (id : Value) :
    cut around (.record table id) = .record table id := by
  rw [cut] <;> simp

theorem renew_of_digestible (content : Value) (hw : WellFormed v) (hd : Digestible v)
    (hc : v.cut [] = v) : renew content v = v := by
  rw [renew, update_of_digestible content hw hd, hc]

theorem ident?_of_handle? (hc : content.handle? = some handle) (hv : v.handle? = some handle) :
    content.ident? = v.ident? := by
  have idents : ∀ {w : Value}, w.handle? = some handle → w.ident? = some (match handle with
      | .buffer ident | .container _ ident => ident) := by
    intro w hw
    unfold handle? at hw
    split at hw <;> cases hw <;> rfl
  rw [idents hc, idents hv]

/-- A change in place leaves every object the one that it is. -/
theorem ident?_renew (content v : Value) : (renew content v).ident? = v.ident? := by
  have cut : ∀ w : Value, (w.cut []).ident? = w.ident? := by
    intro w
    cases w with
    | seq kind items => rw [Value.cut, again?_nil, ident?, ident?]
    | mapping kind entries => rw [Value.cut, again?_nil, ident?, ident?]
    | leaf l => rfl
    | set kind elements => rfl
    | record table id => rw [cut_record]
  rw [renew, cut, update]
  split
  · rfl
  · rename_i handle hc
    cases v with
    | leaf l =>
      rw [substitute]
      split
      · exact ident?_of_handle? hc ‹_›
      · rfl
    | seq kind items =>
      rw [substitute]
      split
      · exact ident?_of_handle? (v := .seq kind []) hc ‹_›
      · rfl
    | mapping kind entries =>
      rw [substitute]
      split
      · exact ident?_of_handle? (v := .mapping kind []) hc ‹_›
      · rfl
    | set kind elements => rfl
    | record table id => rfl

/-- A record has other bytes in its buffers, and is the same in all else. -/
theorem renew_record {table : String} {id : Value} (content : Value)
    (hw : WellFormed (.record table id)) :
    renew content (.record table id) = .record table (refill content.rewriting id) := by
  obtain ⟨hid, hcap, -⟩ := wellFormed_record.mp hw
  unfold renew update
  split
  · rename_i h
    have hr : refill content.rewriting id = id := by
      refine refill_eq_self_iff.mpr fun b _ => rewriting_of_not_buffer ?_ b.1 b.2
      rintro ident data rfl
      cases h
    rw [cut_record, hr]
  · rename_i handle h
    rw [substitute, substitute_eq_refill h hid hcap, cut_record]

end Captured

end RecordLiteral.Value
