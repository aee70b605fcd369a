import RecordLiteral.Proofs.Steps

/-! # Isolation of records

Steps cannot change a record that a variable is bound to, but for the bytes in the byte
buffers of its id: these are the buffers that the record was made from, and they change
with them. A record without byte buffers is the same for good.
-/
namespace RecordLiteral

open Value

section Lookup
variable {α β : Type} {entries : List (String × α)} {name other : String}

theorem lookup_map_snd (f : α → β) :
    (entries.map fun entry => (entry.1, f entry.2)).lookup name = (entries.lookup name).map f := by
  induction entries with
  | nil => rfl
  | cons entry rest ih =>
    obtain ⟨key, v⟩ := entry
    by_cases h : name = key
    · simp [h]
    · simp [List.lookup_cons, beq_false_of_ne h, ih]

theorem lookup_filter_ne (h : name ≠ other) :
    (entries.filter (·.1 != other)).lookup name = entries.lookup name := by
  induction entries with
  | nil => rfl
  | cons entry rest ih =>
    obtain ⟨key, v⟩ := entry
    by_cases hk : key = other
    · have hn : name ≠ key := hk ▸ h
      simp [hk, List.lookup_cons, beq_false_of_ne (hk ▸ hn), ih]
    · by_cases hn : name = key
      · subst hn
        simp [hk]
      · simp [hk, List.lookup_cons, beq_false_of_ne hn, ih]

end Lookup

namespace Workspace

variable {ws : Workspace} {name table : String} {id : Value}

theorem lookup_bind_self (ws : Workspace) (name : String) (v : Value) :
    (ws.bind name v).bindings.lookup name = some v := by
  simp [Workspace.bind]

theorem lookup_bind_ne {other : String} (h : name ≠ other) (v : Value) :
    (ws.bind other v).bindings.lookup name = ws.bindings.lookup name := by
  simp [Workspace.bind, List.lookup_cons, beq_false_of_ne h, lookup_filter_ne h]

theorem lookup_write (content : Value) :
    (ws.write content).bindings.lookup name = (ws.bindings.lookup name).map content.renew :=
  lookup_map_snd content.renew

/-- A value after a step, where it is not bound or stored anew. -/
def renewed (ws : Workspace) (s : Step) (v : Value) : Value :=
  match ws.written? s with
  | some content => content.renew v
  | none => v

/-- A value after steps one after the other. -/
def contentAfter (ws : Workspace) (v : Value) : List Step → Value
  | [] => v
  | s :: rest => (ws.step s).2.contentAfter (ws.renewed s v) rest

theorem renewed_of_none {s : Step} (h : ws.written? s = none) (v : Value) : ws.renewed s v = v := by
  rw [renewed, h]

theorem renewed_of_some {s : Step} {content : Value} (h : ws.written? s = some content) (v : Value) :
    ws.renewed s v = content.renew v := by
  rw [renewed, h]

/-- Steps leave every object the one that it is. -/
theorem ident?_contentAfter (v : Value) (steps : List Step) :
    (ws.contentAfter v steps).ident? = v.ident? := by
  induction steps generalizing ws v with
  | nil => rfl
  | cons s rest ih =>
    rw [contentAfter, ih, renewed]
    split
    · exact ident?_renew _ v
    · rfl

theorem contentAfter_of_digestible {v : Value} (hw : v.WellFormed) (hd : Digestible v)
    (hc : v.cut [] = v) (steps : List Step) : ws.contentAfter v steps = v := by
  induction steps generalizing ws with
  | nil => rfl
  | cons s rest ih =>
    have hs : ws.renewed s v = v := by
      rw [renewed]
      split
      · exact renew_of_digestible _ hw hd hc
      · rfl
    rw [contentAfter, hs, ih]

/-- A step leaves the variables that it does not bind, with what it writes written in them. -/
theorem step_binding (hw : ws.WellFormed) {v : Value} (hb : ws.bindings.lookup name = some v)
    {s : Step} (hs : s.boundName? ≠ some name) :
    (ws.step s).2.bindings.lookup name = some (ws.renewed s v) := by
  cases Step.change hw s with
  | kept hn h => rw [h.bindings, renewed_of_none hn, hb]
  | bound hn other ho w hwf h =>
    have hne : name ≠ other := by
      rintro rfl
      exact hs ho
    rw [h.bindings, lookup_bind_ne hne, renewed_of_none hn, hb]
  | restored hn other w hother h =>
    rw [h.bindings, renewed_of_none hn]
    by_cases hne : name = other
    · subst hne
      rw [lookup_bind_self, ← hother, hb]
    · rw [lookup_bind_ne hne, hb]
  | written content hc hwc h => rw [h.bindings, lookup_write, hb, Option.map_some, renewed_of_some hc]
  | stored hn key item hs hk hi entries hp h => rw [h.bindings, renewed_of_none hn, hb]
  | forgotten hn key item hs hk rest ht h => rw [h.bindings, renewed_of_none hn, hb]

theorem run_binding (hw : ws.WellFormed) {v : Value} (hb : ws.bindings.lookup name = some v)
    {steps : List Step} (hs : ∀ s ∈ steps, s.boundName? ≠ some name) :
    (ws.run steps).2.bindings.lookup name = some (ws.contentAfter v steps) := by
  induction steps generalizing ws v with
  | nil => exact hb
  | cons s rest ih =>
    obtain ⟨hsn, hrest⟩ := List.forall_mem_cons.mp hs
    exact ih (hw.step s) (step_binding hw hb hsn) hrest

def rewritten (ws : Workspace) (s : Step) (ident : Ident) (data : List UInt8) : List UInt8 :=
  match ws.written? s with
  | some content => content.rewriting ident data
  | none => data

/-- The bytes of a buffer after steps one after the other. -/
def bytesAfter (ws : Workspace) (ident : Ident) (data : List UInt8) : List Step → List UInt8
  | [] => data
  | s :: rest => (ws.step s).2.bytesAfter ident (ws.rewritten s ident data) rest

theorem refill_rewritten_of_none {s : Step} (h : ws.written? s = none) (v : Value) :
    refill (ws.rewritten s) v = v := by
  refine refill_eq_self_iff.mpr fun b _ => ?_
  rw [rewritten, h]

theorem renewed_record {s : Step} (hw : (Value.record table id).WellFormed) :
    ws.renewed s (.record table id) = .record table (refill (ws.rewritten s) id) := by
  cases hs : ws.written? s with
  | none => rw [renewed_of_none hs, refill_rewritten_of_none hs]
  | some content =>
    have hr : ws.rewritten s = content.rewriting := by
      funext ident data
      rw [rewritten, hs]
    rw [renewed_of_some hs, hr, renew_record content hw]

/-- A step that does not bind the variable of a record leaves the record, with the bytes that
its buffers then have. -/
theorem step_record (hw : ws.WellFormed) (hb : ws.bindings.lookup name = some (.record table id))
    {s : Step} (hs : s.boundName? ≠ some name) :
    (ws.step s).2.bindings.lookup name = some (.record table (refill (ws.rewritten s) id)) := by
  rw [step_binding hw hb hs, renewed_record (hw.bindings _ (mem_of_lookup hb))]

theorem run_record (hw : ws.WellFormed) (hb : ws.bindings.lookup name = some (.record table id))
    {steps : List Step} (hs : ∀ s ∈ steps, s.boundName? ≠ some name) :
    (ws.run steps).2.bindings.lookup name =
      some (.record table (refill (fun ident data => ws.bytesAfter ident data steps) id)) := by
  induction steps generalizing ws id with
  | nil =>
    have hid : refill (fun ident data => ws.bytesAfter ident data []) id = id :=
      refill_eq_self_iff.mpr fun b _ => rfl
    rw [hid]
    exact hb
  | cons s rest ih =>
    obtain ⟨hsn, hrest⟩ := List.forall_mem_cons.mp hs
    have hstep := ih (hw.step s) (step_record hw hb hsn) hrest
    rw [refill_refill] at hstep
    exact hstep

theorem read_answer {v : Value} (hb : ws.bindings.lookup name = some v) (what : Reading) :
    (ws.step (.read name what)).1.result = v.read? what := by
  show ((Step.read name what).perform.exec { ws with log := [] }).1 = v.read? what
  rw [Step.perform, Work.exec_bind_ok (Work.exec_lookup_some { ws with log := [] } hb),
    Work.exec_ofExcept]

theorem read?_id (table : String) (id : Value) :
    (Value.record table id).read? (.attributeNamed "id") = .ok (.value id) := rfl

/-- What is read of a record, right after it was built and after any further steps, is the
same just when the byte buffers in its id have the same bytes again. The record itself is
the same up to these bytes. -/
theorem record_reads_eq_iff {earlier later : List Step}
    (hbuilt : (empty.run earlier).2.bindings.lookup name = some (.record table id))
    (hkept : ∀ s ∈ later, s.boundName? ≠ some name) :
    let built := (empty.run earlier).2
    let after := (built.run later).2
    after.bindings.lookup name =
        some (.record table (refill (fun ident data => built.bytesAfter ident data later) id)) ∧
      ((∀ what ∈ [Reading.display, .attributeNamed "table", .attributeNamed "id"],
          (after.step (.read name what)).1.result = (built.step (.read name what)).1.result) ↔
        ∀ b ∈ id.buffers, built.bytesAfter b.1 b.2 later = b.2) := by
  intro built after
  have hafter : after.bindings.lookup name =
      some (.record table (refill (fun ident data => built.bytesAfter ident data later) id)) :=
    run_record (wellFormed_empty.run earlier) hbuilt hkept
  have hsame : refill (fun ident data => built.bytesAfter ident data later) id = id ↔
      ∀ b ∈ id.buffers, built.bytesAfter b.1 b.2 later = b.2 := refill_eq_self_iff
  refine ⟨hafter, ?_⟩
  rw [← hsame]
  constructor
  · intro h
    have hid := h (.attributeNamed "id") (by simp)
    rw [read_answer hafter, read_answer hbuilt, read?_id, read?_id] at hid
    exact Answer.value.inj (Except.ok.inj hid)
  · intro h what _
    rw [read_answer hafter, read_answer hbuilt, h]

/-- A list that a record was made from may grow, and what is done to the record itself fails. -/
theorem record_reads_eq_iff_list_grown :
    let earlier : List Step := [.bind "l" (.seq (.list 0) [.leaf (.int 1)]),
      .bindRecord "r" (.leaf (.text "t")) (.seq (.list 0) [.variable "l", .leaf (.buffer 0 [97])])]
    let later : List Step := [.append (.variable "l") (.leaf (.int 2)), .assign "r" "id" (.leaf .null),
      .remove (.idOf "r") (.leaf (.int 0)), .construct "r" [.leaf (.text "u"), .leaf (.int 0)]]
    (((empty.run earlier).2.run later).2.step (.read "r" .display)).1.result =
      ((empty.run earlier).2.step (.read "r" .display)).1.result := by
  intro earlier later
  have hbuilt : (empty.run earlier).2.bindings.lookup "r" = some (.record "t" (.seq (.tuple none)
      [.seq (.tuple none) [.leaf (.int 1)], .leaf (.buffer 3 [97])])) := by
    decide +kernel
  have hkept : ∀ s ∈ later, s.boundName? ≠ some "r" := by
    simp [later, Step.boundName?]
  have hbytes : (empty.run earlier).2.bytesAfter 3 [97] later = [97] := by
    decide +kernel
  obtain ⟨-, hreads⟩ := record_reads_eq_iff hbuilt hkept
  refine hreads.mpr ?_ .display (by simp)
  simpa [buffers, buffersIn] using hbytes

/-- A byte buffer that a record was made from changes the record. -/
theorem record_reads_buffer_grown :
    let built := (empty.run [.bind "b" (.leaf (.buffer 0 [97])),
      .bindRecord "r" (.leaf (.text "t")) (.seq (.list 0) [.variable "b"])]).2
    let after := (built.run [.append (.variable "b") (.leaf (.int 98))]).2
    (after.step (.read "r" .display)).1.result ≠ (built.step (.read "r" .display)).1.result := by
  intro built after
  have hb : (built.step (.read "r" .display)).1.result =
      .ok (.text "t:[ bytearray(b'a') ]".toList) := by
    rfl
  have ha : (after.step (.read "r" .display)).1.result =
      .ok (.text "t:[ bytearray(b'ab') ]".toList) := by
    rfl
  rw [ha, hb]
  simp

end Workspace
end RecordLiteral
