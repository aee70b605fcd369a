import RecordLiteral.Proofs.Construction
import RecordLiteral.Proofs.Isolation

/-! # Entities are written once

A complete entity refuses whatever is tried on it, and stays as it is: an assignment, a deletion,
and a further call of the constructor. The constructor validates before it writes. So arguments
that no entity could be made of are rejected in the same words and with the same log as for a new
entity, and all others get as far as the first write, which is refused. In a workspace such
attempts leave every variable and the dictionary as they are.
-/
namespace RecordLiteral

/-- What can be tried on an entity. -/
inductive Attempt
  | assign (name : String) (item : Value)
  | delete (name : String)
  | construct (arguments : List Value)

namespace Attempt

def apply (e : Entity) : Attempt → Outcome
  | .assign name item => e.assign name item
  | .delete name => e.delete name
  | .construct arguments => e.construct arguments

/-- A construction has an argument for each field. -/
def Fits (kind : EntityKind) : Attempt → Prop
  | .construct arguments => arguments.length = kind.fields.length
  | _ => True

def WellFormed : Attempt → Prop
  | .assign _ item => item.WellFormed
  | .delete _ => True
  | .construct arguments => ∀ v ∈ arguments, v.WellFormed

/-- The attribute that has to be found before the attempt is made. -/
def sought : Attempt → String
  | .assign name _ | .delete name => name
  | .construct _ => "__init__"

end Attempt

namespace Entity

/-- The outcomes of attempts, each on the entity that the one before it has left, and the entity
that the last one leaves. -/
def tryAll (e : Entity) : List Attempt → List Outcome × Entity
  | [] => ([], e)
  | a :: rest =>
    let outcome := a.apply e
    let (outcomes, last) := outcome.entity.tryAll rest
    (outcome :: outcomes, last)

/-- How an attempt on a complete entity comes out: it is refused, and the entity is left. -/
inductive Refused (e : Entity) : Attempt → Outcome → Prop
  | present (name : String) (item : Value) (h : e.hasAttribute name = true) :
    Refused e (.assign name item) ⟨e, [], some (.immutable e.kind.typeName)⟩
  | absent (name : String) (item : Value) (h : e.hasAttribute name = false) :
    Refused e (.assign name item) ⟨e, [], some (.noAttribute e.kind.typeName name)⟩
  | kept (name : String) : Refused e (.delete name) ⟨e, [], some (.immutable e.kind.typeName)⟩
  /-- A new entity would be rejected for this reason and with this log. -/
  | rejected (arguments : List Value) (reason : Rejection) (log : List String)
    (h : ((blank e.kind).construct arguments).built = ⟨log, .error (.rejected reason)⟩) :
    Refused e (.construct arguments) ⟨e, log, some (.rejected reason)⟩
  | complete (arguments : List Value)
    (h : ∀ reason, ((blank e.kind).construct arguments).built.result ≠ .error (.rejected reason)) :
    Refused e (.construct arguments) ⟨e, [], some (.immutable e.kind.typeName)⟩

variable {v : Value} {e : Entity}

theorem Refused.entity_eq {a : Attempt} {o : Outcome} (h : Refused e a o) : o.entity = e := by
  cases h <;> rfl

section Built
variable {log : List String}

theorem ofValue?_of_constructRecord {table id : Value}
    (h : (blank .record).constructRecord table id = ⟨e, log, none⟩) :
    e.kind = .record ∧ ∃ v, ofValue? v = some e := by
  unfold constructRecord at h
  split at h
  · rename_i name
    split at h
    · have htable : (blank .record).assign "_table" (.leaf (.text name)) =
          ⟨⟨.record, [("_table", .leaf (.text name))]⟩, [], none⟩ := rfl
      rw [htable] at h
      cases hcopy : id.snapshot? with
      | ok copy =>
        simp only [Outcome.andThen, hcopy] at h
        cases h
        exact ⟨rfl, .record name copy, rfl⟩
      | error fault =>
        simp only [Outcome.andThen, hcopy] at h
        cases h
    · cases h
  · cases h

theorem ofValue?_of_constructRaw {source : Value}
    (h : (blank .rawRecord).constructRaw source = ⟨e, log, none⟩) :
    e.kind = .rawRecord ∧ ∃ v, ofValue? v = some e := by
  have hwritten : ∀ literal, (blank .rawRecord).assign "_rid" (.leaf (.text literal)) = ⟨e, log, none⟩ →
      e.kind = .rawRecord ∧ ∃ v, ofValue? v = some e := by
    intro literal h
    cases h
    exact ⟨rfl, .leaf (.rawRecord literal), rfl⟩
  unfold constructRaw at h
  split at h
  · exact hwritten _ h
  · exact hwritten _ h
  · exact hwritten _ h
  · cases h

/-- What a constructor has returned is complete: it is the entity of a value. -/
theorem ofValue?_of_construct {kind : EntityKind} {arguments : List Value}
    (h : (blank kind).construct arguments = ⟨e, log, none⟩) :
    e.kind = kind ∧ ∃ v, ofValue? v = some e := by
  unfold construct at h
  split at h
  · rename_i table id hk
    cases (hk : kind = .record)
    exact ofValue?_of_constructRecord h
  · cases h
  · cases h
  · rename_i source hk
    cases (hk : kind = .rawRecord)
    exact ofValue?_of_constructRaw h
  · cases h
  · cases h

end Built

section Complete

theorem assign_refused (h : ofValue? v = some e) (name : String) (item : Value) :
    Refused e (.assign name item) (e.assign name item) := by
  unfold assign
  split
  · rename_i hn
    exact .present name item hn
  · rename_i hn
    split
    · rename_i hf
      exact absurd (hasAttribute_of_ofValue? h hf) hn
    · exact .absent name item (by simpa using hn)

theorem constructRecord_refused (h : ofValue? v = some e) (hk : e.kind = .record) (table : Value)
    {id : Value} (hw : id.WellFormed) :
    Refused e (.construct [table, id]) (e.constructRecord table id) := by
  have hfresh : ((blank e.kind).construct [table, id]).built = Value.newRecord table id := by
    rw [hk]
    rfl
  have hfield : e.kind.fields.contains "_table" = true := by
    rw [hk]
    rfl
  obtain ⟨htable, hnew⟩ | ⟨name, rfl, ⟨hid, hnew⟩ | ⟨hid, hnew⟩⟩ := Value.newRecord_cases table hw
  · have hagain : e.constructRecord table id = e.reject (.table table.typeName) := by
      unfold constructRecord
      split
      · exact absurd rfl (htable _)
      · rfl
    rw [hagain]
    exact .rejected _ _ _ (hfresh.trans hnew)
  · rw [← Value.isIdPart_iff] at hid
    rw [constructRecord, if_neg hid]
    exact .rejected _ _ _ (hfresh.trans hnew)
  · rw [← Value.isIdPart_iff] at hid
    rw [constructRecord, if_pos hid, assign_field h hfield]
    refine .complete _ fun reason => ?_
    rw [hfresh, hnew]
    split <;> simp

theorem constructRaw_refused (h : ofValue? v = some e) (hk : e.kind = .rawRecord) (source : Value) :
    Refused e (.construct [source]) (e.constructRaw source) := by
  have hfresh : ((blank e.kind).construct [source]).built = Value.newRawRecord source := by
    rw [hk]
    rfl
  have hfield : e.kind.fields.contains "_rid" = true := by
    rw [hk]
    rfl
  have hwrites : ∀ item made, Value.newRawRecord source = ⟨[], .ok made⟩ →
      Refused e (.construct [source]) (e.assign "_rid" item) := by
    intro item made hmade
    rw [assign_field h hfield]
    refine .complete _ fun reason => ?_
    rw [hfresh, hmade]
    simp
  unfold constructRaw
  split
  · exact hwrites _ _ rfl
  · exact hwrites _ _ rfl
  · exact hwrites _ _ rfl
  · rename_i hraw hrecord htext
    refine .rejected _ _ _ (hfresh.trans ?_)
    unfold Value.newRawRecord constructRaw
    split
    · exact absurd rfl (hraw _)
    · exact absurd rfl (hrecord _ _)
    · exact absurd rfl (htext _)
    · rfl

theorem construct_refused (h : ofValue? v = some e) {arguments : List Value}
    (hcount : arguments.length = e.kind.fields.length) (hw : ∀ v ∈ arguments, v.WellFormed) :
    Refused e (.construct arguments) (e.construct arguments) := by
  cases hk : e.kind with
  | record =>
    rw [hk] at hcount
    obtain ⟨table, id, rfl⟩ := List.length_eq_two.mp hcount
    have hconstruct : e.construct [table, id] = e.constructRecord table id := by
      simp only [construct, hk]
    rw [hconstruct]
    exact constructRecord_refused h hk table (hw id (by simp))
  | rawRecord =>
    rw [hk] at hcount
    obtain ⟨source, rfl⟩ := List.length_eq_one_iff.mp hcount
    have hconstruct : e.construct [source] = e.constructRaw source := by
      simp only [construct, hk]
    rw [hconstruct]
    exact constructRaw_refused h hk source

/-- One attempt. -/
theorem apply_refused (h : ofValue? v = some e) {a : Attempt} (hfit : a.Fits e.kind)
    (hw : a.WellFormed) : Refused e a (a.apply e) := by
  cases a with
  | assign name item => exact assign_refused h name item
  | delete name => exact .kept name
  | construct arguments => exact construct_refused h hfit hw

/-- Attempts one after the other. -/
theorem tryAll_refused (h : ofValue? v = some e) {attempts : List Attempt}
    (hfit : ∀ a ∈ attempts, a.Fits e.kind) (hw : ∀ a ∈ attempts, a.WellFormed) :
    (e.tryAll attempts).2 = e ∧ List.Forall₂ (Refused e) attempts (e.tryAll attempts).1 := by
  induction attempts with
  | nil => exact ⟨rfl, .nil⟩
  | cons a rest ih =>
    obtain ⟨hfits, hfitrest⟩ := List.forall_mem_cons.mp hfit
    obtain ⟨hwa, hwrest⟩ := List.forall_mem_cons.mp hw
    have hstep := apply_refused h hfits hwa
    obtain ⟨hlast, houtcomes⟩ := ih hfitrest hwrest
    rw [tryAll, hstep.entity_eq]
    exact ⟨hlast, .cons hstep houtcomes⟩

end Complete

end Entity

namespace Step

open Work Workspace

/-- The variable of a step that tries something on an entity, and what it tries. -/
def attempt? : Step → Option (String × Work Attempt)
  | .assign name field value => some (name, do return .assign field (← value.eval))
  | .delete name field => some (name, do return .delete field)
  | .construct name arguments => some (name, do return .construct (← evalAll arguments))
  | _ => none

/-- A step that looks at the objects that variables hold, or at the dictionary. -/
inductive LooksAt : Step → Prop
  | state (name : String) : LooksAt (.state name)
  | read (name : String) (what : Reading) : LooksAt (.read name what)
  | compare (name other : String) : LooksAt (.compare (.variable name) (.variable other))
  | lookup (name : String) : LooksAt (.lookup (.variable name))
  | keys : LooksAt .keys

variable {s : Step} {name : String} {work : Work Attempt}

theorem perform_of_attempt? (h : s.attempt? = some (name, work)) :
    s.perform = (do
      let v ← Work.lookup name
      let a ← work
      finish name (a.apply (← entity a.sought v))) := by
  cases s with
  | assign name field value =>
    cases h
    simp only [perform, bind_assoc, pure_bind]
    rfl
  | delete name field =>
    cases h
    simp only [perform, pure_bind]
    rfl
  | construct name arguments =>
    cases h
    simp only [perform, bind_assoc, pure_bind]
    rfl
  | _ => cases h

theorem yields_attempt (h : s.attempt? = some (name, work)) : Yields work Attempt.WellFormed := by
  cases s with
  | assign name field value =>
    cases h
    exact (Term.yields_eval value).bind fun item hi => .pure hi
  | delete name field =>
    cases h
    exact .pure trivial
  | construct name arguments =>
    cases h
    exact (Term.yields_evalItems arguments).bind fun values hvs => .pure hvs
  | _ => cases h

end Step

namespace Workspace

/-- The variable of a step that tries something on an entity, and what its terms come to. -/
def attempted? (ws : Workspace) (s : Step) : Option (String × Logged Attempt) :=
  s.attempt?.map fun (name, work) =>
    let (result, after) := work.exec { ws with log := [] }
    (name, ⟨after.log, result⟩)

/-- Every variable holds the object that it held, and the dictionary is the same. -/
structure Unmoved (ws after : Workspace) : Prop where
  lookup : ∀ name, after.bindings.lookup name = ws.bindings.lookup name
  dictionary : after.dictionary = ws.dictionary

variable {ws after : Workspace} {s : Step}

theorem answer_of_exec {result : Except Fault Answer}
    (h : s.perform.exec { ws with log := [] } = (result, after)) : (ws.step s).1 = ⟨after.log, result⟩ := by
  change s.perform.run.run { ws with log := [] } = _ at h
  rw [step, h]

theorem Unmoved.refl (ws : Workspace) : Unmoved ws ws := ⟨fun _ => rfl, rfl⟩

theorem Unmoved.trans {middle : Workspace} (h : Unmoved ws middle) (h' : Unmoved middle after) :
    Unmoved ws after :=
  ⟨fun name => (h'.lookup name).trans (h.lookup name), h'.dictionary.trans h.dictionary⟩

theorem Kept.unmoved (h : Kept ws after) : Unmoved ws after :=
  ⟨fun _ => by rw [h.bindings], h.dictionary⟩

theorem unmoved_bind {name : String} {v : Value} (h : ws.bindings.lookup name = some v) :
    Unmoved ws (ws.bind name v) := by
  refine ⟨fun other => ?_, rfl⟩
  by_cases hne : other = name
  · rw [hne, lookup_bind_self, h]
  · rw [lookup_bind_ne hne]

/-- A step that tries something on an entity changes nothing. -/
theorem WellFormed.step_attempt (hw : ws.WellFormed) (hs : s.attempt?.isSome) :
    Unmoved ws (ws.step s).2 := by
  have hnone : s.content? = none ∧ s.boundName? = none ∧ s.addressing? = none := by
    cases s with
    | assign name field value => exact ⟨rfl, rfl, rfl⟩
    | delete name field => exact ⟨rfl, rfl, rfl⟩
    | construct name arguments => exact ⟨rfl, rfl, rfl⟩
    | _ => cases hs
  obtain ⟨hcontent, hbound, haddress⟩ := hnone
  cases Step.change hw s with
  | kept hn h => exact h.unmoved
  | bound hn name hname v hv h =>
    rw [hbound] at hname
    cases hname
  | restored hn name v hv h => exact (unmoved_bind hv).trans h.unmoved
  | written content hc hwc h =>
    rw [written?, hcontent] at hc
    cases hc
  | stored hn key item ha hk hi entries hp h =>
    rw [addressed?, haddress] at ha
    cases ha
  | forgotten hn key item ha hk rest ht h =>
    rw [addressed?, haddress] at ha
    cases ha

theorem WellFormed.run_attempts (hw : ws.WellFormed) {steps : List Step}
    (hs : ∀ s ∈ steps, s.attempt?.isSome) : Unmoved ws (ws.run steps).2 := by
  induction steps generalizing ws with
  | nil => exact .refl ws
  | cons s rest ih =>
    obtain ⟨hstep, hrest⟩ := List.forall_mem_cons.mp hs
    exact (hw.step_attempt hstep).trans (ih (hw.step s) hrest)

theorem attempted?_eq_some {name : String} {logged : List String} {a : Attempt}
    (h : ws.attempted? s = some (name, ⟨logged, .ok a⟩)) : ∃ work middle, s.attempt? = some (name, work) ∧
      work.exec { ws with log := [] } = (.ok a, middle) ∧ middle.log = logged := by
  obtain ⟨⟨other, work⟩, hs, hwork⟩ := Option.map_eq_some_iff.mp h
  cases hexec : work.exec { ws with log := [] } with
  | mk result middle =>
    simp only [hexec] at hwork
    cases hwork
    exact ⟨work, middle, hs, hexec, rfl⟩

theorem WellFormed.attempted? (hw : ws.WellFormed) {name : String} {logged : List String} {a : Attempt}
    (h : ws.attempted? s = some (name, ⟨logged, .ok a⟩)) : a.WellFormed := by
  obtain ⟨work, middle, hs, hexec, -⟩ := attempted?_eq_some h
  obtain ⟨-, hwa⟩ := Step.yields_attempt hs _ ((Kept.unlogged ws).wellFormed hw)
  exact hwa a (by rw [hexec])

/-- What such a step answers: the log of its terms comes before that of the attempt. -/
theorem answer_of_attempted? {name : String} {logged : List String} {a : Attempt} {v : Value} {e : Entity}
    {fault : Fault} (hb : ws.bindings.lookup name = some v) (he : Entity.ofValue? v = some e)
    (ha : ws.attempted? s = some (name, ⟨logged, .ok a⟩)) (hleft : (a.apply e).entity = e)
    (hf : (a.apply e).fault = some fault) :
    (ws.step s).1 = ⟨logged ++ (a.apply e).log, .error fault⟩ := by
  obtain ⟨work, middle, hs, hexec, rfl⟩ := attempted?_eq_some ha
  have hentity : (Step.entity a.sought v).exec middle = (.ok e, middle) := by
    rw [Step.entity, he]
    rfl
  have hvalue : (a.apply e).entity.toValue? = some v := by
    rw [hleft, Entity.toValue?_ofValue? he]
  have hperform : s.perform.exec { ws with log := [] } =
      (.error fault, { middle with log := middle.log ++ (a.apply e).log }.bind name v) := by
    rw [Step.perform_of_attempt? hs, Work.exec_bind_ok (Work.exec_lookup_some { ws with log := [] } hb),
      Work.exec_bind_ok hexec, Work.exec_bind_ok hentity, Step.finish, Work.exec_bind, Work.exec_modify]
    simp only [hvalue, hf]
    rw [Work.exec_bind, Work.exec_modify]
    rfl
  exact answer_of_exec hperform

end Workspace

namespace Work

open Workspace

variable {α β : Type} {work : Work α} {next : α → Work β}

/-- Work that changes nothing, with a result that depends on the variables and the dictionary
alone. -/
def Looks (work : Work α) : Prop :=
  ∀ ws after, Unmoved ws after → ∃ r, work.exec ws = (r, ws) ∧ work.exec after = (r, after)

theorem looks_pure (v : α) : Looks (pure v) := fun _ _ _ => ⟨.ok v, rfl, rfl⟩

theorem looks_throw (fault : Fault) : Looks (throw fault : Work α) := fun _ _ _ => ⟨.error fault, rfl, rfl⟩

theorem looks_ofExcept (e : Except Fault α) : Looks (ofExcept e) :=
  fun ws after _ => ⟨e, exec_ofExcept e ws, exec_ofExcept e after⟩

theorem looks_lookup (name : String) : Looks (lookup name) := by
  intro ws after h
  cases hb : ws.bindings.lookup name with
  | none => exact ⟨_, exec_lookup_none ws hb, exec_lookup_none after ((h.lookup name).trans hb)⟩
  | some v => exact ⟨_, exec_lookup_some ws hb, exec_lookup_some after ((h.lookup name).trans hb)⟩

theorem Looks.bind (h : Looks work) (hn : ∀ v, Looks (next v)) : Looks (work >>= next) := by
  intro ws after hu
  obtain ⟨r, hws, hafter⟩ := h ws after hu
  rw [exec_bind, exec_bind, hws, hafter]
  cases r with
  | ok v => exact hn v ws after hu
  | error fault => exact ⟨.error fault, rfl, rfl⟩

theorem looks_dictionary (look : List (Value × Value) → Work α) (h : ∀ entries, Looks (look entries)) :
    Looks (do look (← get).dictionary) := by
  intro ws after hu
  rw [exec_bind_ok (exec_get ws), exec_bind_ok (exec_get after), hu.dictionary]
  exact h ws.dictionary ws after hu

end Work

namespace Step

open Work Workspace

theorem looks_entity (wanted : String) (v : Value) : Looks (entity wanted v) := by
  unfold entity
  split
  · exact looks_pure _
  · exact looks_throw _

theorem looks_perform {s : Step} (h : s.LooksAt) : Looks s.perform := by
  cases h with
  | state name =>
    refine (looks_lookup name).bind fun v => ?_
    refine (looks_entity "rid" v).bind fun e => ?_
    split
    · exact looks_pure _
    · exact looks_throw _
  | read name what =>
    refine (looks_lookup name).bind fun v => ?_
    exact looks_ofExcept _
  | compare name other =>
    refine (looks_lookup name).bind fun a => ?_
    refine (looks_lookup other).bind fun b => ?_
    refine (looks_ofExcept _).bind fun c => ?_
    exact looks_pure _
  | lookup name =>
    refine (looks_lookup name).bind fun k => ?_
    refine looks_dictionary (fun entries => do return Answer.found (← ofExcept (Dictionary.get? entries k))) ?_
    intro entries
    refine (looks_ofExcept _).bind fun found => ?_
    exact looks_pure _
  | keys =>
    refine looks_dictionary (fun entries => return Answer.texts (entries.map fun entry => entry.1.display)) ?_
    exact fun entries => looks_pure _

/-- What is looked at is as it was. -/
theorem answer_eq_of_unmoved {ws after : Workspace} (hu : Unmoved ws after) {s : Step} (h : s.LooksAt) :
    (after.step s).1 = (ws.step s).1 := by
  obtain ⟨r, hws, hafter⟩ := looks_perform h { ws with log := [] } { after with log := [] }
    ⟨hu.lookup, hu.dictionary⟩
  rw [answer_of_exec hws, answer_of_exec hafter]

end Step

namespace Entity

variable {e : Entity}

theorem Refused.fault_eq {a : Attempt} {o : Outcome} (h : Refused e a o) :
    ∃ fault, o.fault = some fault := by
  cases h <;> exact ⟨_, rfl⟩

/-- What a constructor returns is never written again. Every attempt in a sequence of attempts is
refused, and the entity after all of them is the one before: assignments and deletions are refused
for what the entity is, and the constructor rejects, with its log, just what it rejects for a new
entity. In a workspace a step that makes such an attempt answers with the refusal, and after any
number of such steps each variable holds the object that it held, the dictionary is the same, and
everything that is looked at answers the same. -/
theorem attempts_refused {kind : EntityKind} {arguments : List Value} {log : List String}
    (hbuilt : (blank kind).construct arguments = ⟨e, log, none⟩) {attempts : List Attempt}
    (hfit : ∀ a ∈ attempts, a.Fits kind) (hw : ∀ a ∈ attempts, a.WellFormed) :
    (e.tryAll attempts).2 = e ∧ List.Forall₂ (Refused e) attempts (e.tryAll attempts).1 ∧
      ∀ earlier : List Step,
        let before := (Workspace.empty.run earlier).2
        (∀ s name v a logged, before.bindings.lookup name = some v → ofValue? v = some e →
          before.attempted? s = some (name, ⟨logged, .ok a⟩) → a.Fits kind →
          ∃ o fault, Refused e a o ∧ o.fault = some fault ∧
            (before.step s).1 = ⟨logged ++ o.log, .error fault⟩) ∧
        ∀ later : List Step, (∀ s ∈ later, s.attempt?.isSome) →
          let after := (before.run later).2
          (∀ name, after.bindings.lookup name = before.bindings.lookup name) ∧
            after.dictionary = before.dictionary ∧
            ∀ s : Step, s.LooksAt → (after.step s).1 = (before.step s).1 := by
  obtain ⟨rfl, v, hv⟩ := ofValue?_of_construct hbuilt
  obtain ⟨hlast, houtcomes⟩ := tryAll_refused hv hfit hw
  refine ⟨hlast, houtcomes, fun earlier => ?_⟩
  have hbefore := Workspace.wellFormed_empty.run earlier
  constructor
  · intro s name w a logged hb he ha hafits
    have hrefused := apply_refused he hafits (hbefore.attempted? ha)
    obtain ⟨fault, hfault⟩ := hrefused.fault_eq
    exact ⟨a.apply e, fault, hrefused, hfault,
      Workspace.answer_of_attempted? hb he ha hrefused.entity_eq hfault⟩
  · intro later hlater
    have hunmoved := hbefore.run_attempts hlater
    exact ⟨hunmoved.lookup, hunmoved.dictionary, fun s hs => Step.answer_eq_of_unmoved hunmoved hs⟩

/-- A key of the dictionary is the record that it was after its id was assigned and deleted, and
after its constructor was called with arguments that are no record and with such that are one. -/
theorem attempts_refused_key :
    let id := Value.seq (.tuple none) [.leaf (.int 1)]
    let e : Entity := ⟨.record, [("_table", .leaf (.text "t")), ("_id", id)]⟩
    let attempts : List Attempt := [.assign "_id" (.leaf .null), .assign "x" (.leaf .null), .delete "id",
      .construct [.leaf .null, .leaf .null], .construct [.leaf (.text "u"), .leaf (.int 0)]]
    let earlier : List Step := [.bindRecord "r" (.leaf (.text "t")) (.seq (.list 0) [.leaf (.int 1)]),
      .store (.variable "r") (.leaf (.int 5))]
    let later : List Step := [.assign "r" "_id" (.leaf .null), .assign "r" "x" (.leaf .null),
      .delete "r" "id", .construct "r" [.leaf .null, .leaf .null], .construct "r" [.leaf (.text "u"), .leaf (.int 0)]]
    let after := ((Workspace.empty.run earlier).2.run later).2
    (e.tryAll attempts).2 = e ∧
      after.dictionary = [(.record "t" id, .leaf (.int 5))] ∧
      (after.step (.read "r" .display)).1.result = .ok (.text "t:[ 1 ]".toList) := by
  intro id e attempts earlier later after
  have hbuilt : (blank .record).construct [.leaf (.text "t"), .seq (.list 0) [.leaf (.int 1)]] =
      ⟨e, [], none⟩ := rfl
  have hfit : ∀ a ∈ attempts, a.Fits .record := by
    simp [attempts, Attempt.Fits, EntityKind.fields]
  have hlater : ∀ s ∈ later, s.attempt?.isSome := by
    simp [later, Step.attempt?]
  have hw : ∀ a ∈ attempts, a.WellFormed := by
    simp [attempts, Attempt.WellFormed]
  obtain ⟨hlast, -, hworkspace⟩ := attempts_refused hbuilt hfit hw
  obtain ⟨-, hunmoved⟩ := hworkspace earlier
  obtain ⟨-, hdictionary, hlook⟩ := hunmoved later hlater
  refine ⟨hlast, ?_, ?_⟩
  · rw [hdictionary]
    decide +kernel
  · rw [hlook _ (.read "r" .display)]
    rfl

end Entity

end RecordLiteral
