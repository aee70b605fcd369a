import RecordLiteral.Proofs.Evaluation
import RecordLiteral.Proofs.Update

/-! # What a step can do

A step leaves variables and dictionary as they are, binds one variable, writes one object,
or stores or forgets one entry. An operation on an entity leaves it as it was, whatever it
answers. Every workspace that is reached is well-formed.
-/
namespace RecordLiteral

open Value

namespace Entity

variable {v : Value} {e : Entity}

theorem toValue?_ofValue? (h : ofValue? v = some e) : e.toValue? = some v := by
  cases v with
  | record table id =>
    cases h
    rfl
  | leaf l =>
    cases l with
    | rawRecord literal =>
      cases h
      rfl
    | _ => cases h
  | _ => cases h

theorem hasAttribute_of_ofValue? (h : ofValue? v = some e) {name : String}
    (hf : e.kind.fields.contains name = true) : e.hasAttribute name = true := by
  cases v with
  | record table id =>
    cases h
    simp only [EntityKind.fields, List.contains_eq_mem, List.mem_cons, List.not_mem_nil, or_false,
      decide_eq_true_eq] at hf
    rcases hf with rfl | rfl <;> rfl
  | leaf l =>
    cases l with
    | rawRecord literal =>
      cases h
      simp only [EntityKind.fields, List.contains_eq_mem, List.mem_cons, List.not_mem_nil, or_false,
        decide_eq_true_eq] at hf
      rcases hf with rfl
      rfl
    | _ => cases h
  | _ => cases h

theorem assign_entity (h : ofValue? v = some e) (name : String) (item : Value) :
    (e.assign name item).entity = e := by
  unfold assign
  split
  · rfl
  · rename_i hn
    split
    · rename_i hf
      exact absurd (hasAttribute_of_ofValue? h hf) hn
    · rfl

theorem assign_field (h : ofValue? v = some e) {name : String}
    (hf : e.kind.fields.contains name = true) (item : Value) :
    e.assign name item = e.fail (.immutable e.kind.typeName) := by
  rw [assign, if_pos (hasAttribute_of_ofValue? h hf)]

theorem delete_entity (e : Entity) (name : String) : (e.delete name).entity = e := rfl

theorem construct_entity (h : ofValue? v = some e) (arguments : List Value) :
    (e.construct arguments).entity = e := by
  unfold construct
  split
  · rename_i table id hk
    have hf : e.kind.fields.contains "_table" = true := by
      rw [hk]
      rfl
    unfold constructRecord
    split
    · split
      · rw [assign_field h hf]
        rfl
      · rfl
    · rfl
  · rfl
  · rfl
  · rename_i source hk
    unfold constructRaw
    split
    · exact assign_entity h _ _
    · exact assign_entity h _ _
    · exact assign_entity h _ _
    · rfl
  · rfl
  · rfl

end Entity

/-- The variable that a step binds to an object that it has made or found. -/
def Step.boundName? : Step → Option String
  | .bind name _ | .bindRecord name _ _ | .bindRawRecord name _ => some name
  | _ => none

/-- Whether a step looks at things and changes nothing. -/
def Step.onlyLooks : Step → Bool
  | .state .. | .read .. | .render .. | .compare .. | .lookup .. | .keys => true
  | _ => false

def Step.content? : Step → Option (Work Value)
  | .append target value => some (appended target value)
  | .put target key value => some (placed target key value)
  | .remove target key => some (removed target key)
  | _ => none

/-- The key of the entry that a step stores or forgets, and the item that it stores. -/
def Step.addressing? : Step → Option (Work (Value × Option Value))
  | .store key value => some do
    let v ← value.eval
    let k ← key.eval
    return (k, some v)
  | .forget key => some do return (← key.eval, none)
  | _ => none

namespace Workspace

/-- The new content that a step writes, if it changes an object at all. -/
def written? (ws : Workspace) (s : Step) : Option Value :=
  s.content?.bind fun work => (work.exec { ws with log := [] }).1.toOption

/-- The key and the item of the entry that a step is about, if it gets as far as these. -/
def addressed? (ws : Workspace) (s : Step) : Option (Value × Option Value) :=
  s.addressing?.bind fun work => (work.exec { ws with log := [] }).1.toOption

/-- What a step can do. -/
inductive Change (ws : Workspace) (s : Step) (after : Workspace) : Prop
  | kept (hn : ws.written? s = none) (h : Kept ws after)
  | bound (hn : ws.written? s = none) (name : String) (hs : s.boundName? = some name) (v : Value)
    (hv : v.WellFormed) (h : Kept (ws.bind name v) after)
  | restored (hn : ws.written? s = none) (name : String) (v : Value)
    (hv : ws.bindings.lookup name = some v) (h : Kept (ws.bind name v) after)
  | written (content : Value) (hs : ws.written? s = some content) (hc : content.WellFormed)
    (h : Kept (ws.write content) after)
  | stored (hn : ws.written? s = none) (key item : Value)
    (hs : ws.addressed? s = some (key, some item)) (hk : key.WellFormed) (hi : item.WellFormed)
    (entries : List (Value × Value))
    (hp : Dictionary.put? ws.dictionary key item = .ok entries)
    (h : Kept { ws with dictionary := entries } after)
  | forgotten (hn : ws.written? s = none) (key item : Value)
    (hs : ws.addressed? s = some (key, none)) (hk : key.WellFormed) (rest : List (Value × Value))
    (ht : Dictionary.take? ws.dictionary key = .ok (item, rest))
    (h : Kept { ws with dictionary := rest } after)

section Kept
variable {ws after : Workspace}

theorem Kept.bind (h : Kept ws after) (name : String) (v : Value) :
    Kept (ws.bind name v) (after.bind name v) :=
  ⟨by simp only [Workspace.bind, h.bindings], h.dictionary⟩

theorem Kept.write (h : Kept ws after) (content : Value) :
    Kept (ws.write content) (after.write content) :=
  ⟨by simp only [Workspace.write, h.bindings], by simp only [Workspace.write, h.dictionary]⟩

theorem Kept.store (h : Kept ws after) (entries : List (Value × Value)) :
    Kept { ws with dictionary := entries } { after with dictionary := entries } :=
  ⟨h.bindings, rfl⟩

end Kept

end Workspace

namespace Work

variable {α β : Type} {work : Work α} {next : α → Work β} {P : α → Prop}

theorem Yields.after {ws : Workspace} {Post : Workspace → Prop} (h : Yields work P)
    (hw : ws.WellFormed) (hfail : ∀ after, Workspace.Kept ws after → Post after)
    (hnext : ∀ v after, work.exec ws = (.ok v, after) → P v → Workspace.Kept ws after →
      Post ((next v).exec after).2) :
    Post ((work >>= next).exec ws).2 := by
  obtain ⟨kept, hp⟩ := h ws hw
  rw [exec_bind]
  cases he : work.exec ws with
  | mk result after =>
    rw [he] at kept hp
    cases result with
    | ok v => exact hnext v after he (hp v rfl) kept
    | error fault => exact hfail after kept

end Work

namespace Step

open Work Workspace

variable {ws : Workspace}

theorem yields_appended (target value : Term) : Yields (appended target value) Value.WellFormed := by
  refine (Term.yields_eval target).bind ?_
  intro container hc
  -- The check that there is something to append to comes before the value.
  have hadds : Yields (ofExcept container.append?) fun add => container.append? = .ok add :=
    .ofExcept fun _ h => h
  refine hadds.bind ?_
  intro add hadd
  refine (Term.yields_eval value).bind ?_
  intro item hi
  exact .ofExcept fun _ h => hc.append? hi hadd h

theorem yields_placed (target key value : Term) : Yields (placed target key value) Value.WellFormed := by
  refine (Term.yields_eval value).bind ?_
  intro item hi
  refine (Term.yields_eval target).bind ?_
  intro container hc
  refine (Term.yields_eval key).bind ?_
  intro k hk
  exact .ofExcept fun _ h => hc.put? hk hi h

theorem yields_removed (target key : Term) : Yields (removed target key) Value.WellFormed := by
  refine (Term.yields_eval target).bind ?_
  intro container hc
  refine (Term.yields_eval key).bind ?_
  intro k _
  exact .ofExcept fun _ h => hc.remove? h

theorem yields_entity (wanted : String) (v : Value) :
    Yields (entity wanted v) fun e => Entity.ofValue? v = some e := by
  unfold entity
  split
  · exact .pure ‹_›
  · exact .throw _

theorem yields_content {s : Step} {work : Work Value} (h : s.content? = some work) :
    Yields work Value.WellFormed := by
  cases s with
  | append target value =>
    cases h
    exact yields_appended target value
  | put target key value =>
    cases h
    exact yields_placed target key value
  | remove target key =>
    cases h
    exact yields_removed target key
  | _ => cases h

theorem change_of_content {s : Step} {work : Work Value} (hw : ws.WellFormed) (h : s.content? = some work)
    (answer : Answer) : Change ws s ((do
      let content ← work
      modify (·.write content)
      return answer : Work Answer).exec { ws with log := [] }).2 := by
  have hkept := Kept.unlogged ws
  obtain ⟨kept, hp⟩ := yields_content h _ (hkept.wellFormed hw)
  have hwritten : ws.written? s = (work.exec { ws with log := [] }).1.toOption := by
    rw [written?, h]
    rfl
  rw [exec_bind]
  cases he : work.exec { ws with log := [] } with
  | mk result after =>
    rw [he] at kept hp hwritten
    cases result with
    | ok content => exact .written content hwritten (hp content rfl) ((hkept.trans kept).write content)
    | error fault => exact .kept hwritten (hkept.trans kept)

theorem change_of_finish {s : Step} {name wanted : String} {v : Value} {middle : Workspace}
    (hn : ws.written? s = none) (hv : ws.bindings.lookup name = some v) (hm : Kept ws middle)
    {operate : Entity → Outcome} (h : ∀ e, Entity.ofValue? v = some e → (operate e).entity = e) :
    Change ws s ((do finish name (operate (← entity wanted v)) : Work Answer).exec middle).2 := by
  rw [exec_bind]
  unfold entity
  cases he : Entity.ofValue? v with
  | none => exact .kept hn hm
  | some e =>
    refine .restored hn name v hv ?_
    have hvalue : (operate e).entity.toValue? = some v := by
      rw [h e he, Entity.toValue?_ofValue? he]
    show Kept (ws.bind name v) ((finish name (operate e)).exec middle).2
    unfold finish
    rw [exec_bind, exec_modify]
    simp only [hvalue]
    rw [exec_bind, exec_modify]
    have hlogged : Kept ws { middle with log := middle.log ++ (operate e).log } :=
      ⟨hm.bindings, hm.dictionary⟩
    cases (operate e).fault <;> exact hlogged.bind name v

theorem change_of_bind {s : Step} {name : String} {value : Term} (hw : ws.WellFormed)
    (hn : ws.written? s = none) (hs : s.boundName? = some name) (answer : Value → Answer) :
    Change ws s ((do
      let v ← value.eval
      modify (·.bind name v)
      return answer v : Work Answer).exec { ws with log := [] }).2 := by
  have hkept := Kept.unlogged ws
  apply (Term.yields_eval value).after (hkept.wellFormed hw)
  · intro after h
    exact .kept hn (hkept.trans h)
  · intro v after _ hv h
    exact .bound hn name hs v hv ((hkept.trans h).bind name v)

theorem yields_ofExcept {α : Type} (e : Except Fault α) : Yields (ofExcept e) fun _ => True :=
  .ofExcept fun _ _ => trivial

theorem yields_get : Yields (get : Work Workspace) fun _ => True :=
  fun ws _ => ⟨.refl ws, fun _ _ => trivial⟩

theorem yields_perform_of_onlyLooks {s : Step} (h : s.onlyLooks = true) :
    Yields s.perform fun _ => True := by
  cases s with
  | state name =>
    refine (yields_lookup name).bind ?_
    intro v _
    refine (yields_entity "rid" v).bind ?_
    intro e _
    split
    · exact .pure trivial
    · exact .throw _
  | read name what =>
    refine (yields_lookup name).bind ?_
    intro v _
    exact yields_ofExcept _
  | render value =>
    refine (Term.yields_eval value).bind ?_
    intro v _
    exact .pure trivial
  | compare a b =>
    refine (Term.yields_eval a).bind ?_
    intro a _
    refine (Term.yields_eval b).bind ?_
    intro b _
    refine (yields_ofExcept _).bind ?_
    intro c _
    exact .pure trivial
  | lookup key =>
    refine (Term.yields_eval key).bind ?_
    intro k _
    refine yields_get.bind ?_
    intro ws _
    refine (yields_ofExcept _).bind ?_
    intro found _
    exact .pure trivial
  | keys =>
    refine yields_get.bind ?_
    intro ws _
    exact .pure trivial
  | _ => cases h

theorem change_of_onlyLooks {s : Step} (hw : ws.WellFormed) (hn : ws.written? s = none)
    (h : s.onlyLooks = true) : Change ws s (s.perform.exec { ws with log := [] }).2 := by
  have hkept := Kept.unlogged ws
  obtain ⟨kept, -⟩ := yields_perform_of_onlyLooks h _ (hkept.wellFormed hw)
  exact .kept hn (hkept.trans kept)

theorem change_of_lookup {s : Step} {name : String} {next : Value → Work Answer}
    (hn : ws.written? s = none)
    (h : ∀ v, ws.bindings.lookup name = some v → Change ws s ((next v).exec { ws with log := [] }).2) :
    Change ws s ((Work.lookup name >>= next).exec { ws with log := [] }).2 := by
  cases hv : ws.bindings.lookup name with
  | none =>
    rw [exec_bind_error (exec_lookup_none { ws with log := [] } hv)]
    exact .kept hn (.unlogged ws)
  | some v =>
    rw [exec_bind_ok (exec_lookup_some { ws with log := [] } hv)]
    exact h v hv

theorem addressed?_store {key value : Term} {k item : Value} :
    ws.addressed? (.store key value) = some (k, some item) ↔ ∃ middle after,
      value.eval.exec { ws with log := [] } = (.ok item, middle) ∧ key.eval.exec middle = (.ok k, after) := by
  unfold addressed?
  rw [addressing?, Option.bind_some, exec_bind]
  cases hv : value.eval.exec { ws with log := [] } with
  | mk result middle =>
    cases result with
    | error fault => simp [Except.toOption]
    | ok v =>
      simp only [exec_bind]
      cases hk : key.eval.exec middle with
      | mk result after => cases result <;> simp [Except.toOption, exec_pure, hk, and_comm]

theorem addressed?_forget {key : Term} {k : Value} {after : Workspace}
    (h : key.eval.exec { ws with log := [] } = (.ok k, after)) :
    ws.addressed? (.forget key) = some (k, none) := by
  unfold addressed?
  rw [addressing?, Option.bind_some, exec_bind_ok h]
  rfl

theorem change_of_put {s : Step} {key item : Value} {after : Workspace} (hn : ws.written? s = none)
    (hs : ws.addressed? s = some (key, some item)) (h : Kept ws after) (hk : key.WellFormed)
    (hi : item.WellFormed) (answer : List (Value × Value) → Answer) : Change ws s ((do
      let entries ← ofExcept (Dictionary.put? (← get).dictionary key item)
      modify fun ws => { ws with dictionary := entries }
      return answer entries : Work Answer).exec after).2 := by
  rw [exec_bind_ok (exec_get after), exec_bind, exec_ofExcept]
  cases hp : Dictionary.put? after.dictionary key item with
  | error fault => exact .kept hn h
  | ok entries => exact .stored hn key item hs hk hi entries (h.dictionary ▸ hp) (h.store entries)

theorem change_of_take {s : Step} {key : Value} {after : Workspace} (hn : ws.written? s = none)
    (hs : ws.addressed? s = some (key, none)) (h : Kept ws after) (hk : key.WellFormed) (answer : Value → Answer) : Change ws s ((do
      let (item, rest) ← ofExcept (Dictionary.take? (← get).dictionary key)
      modify fun ws => { ws with dictionary := rest }
      return answer item : Work Answer).exec after).2 := by
  rw [exec_bind_ok (exec_get after), exec_bind, exec_ofExcept]
  cases ht : Dictionary.take? after.dictionary key with
  | error fault => exact .kept hn h
  | ok taken =>
    obtain ⟨item, rest⟩ := taken
    exact .forgotten hn key item hs hk rest (h.dictionary ▸ ht) (h.store rest)

/-- Each step is one of the changes. -/
theorem change (hw : ws.WellFormed) (s : Step) : Change ws s (ws.step s).2 := by
  show Change ws s (s.perform.exec { ws with log := [] }).2
  have hkept := Kept.unlogged ws
  have hwk := hkept.wellFormed hw
  cases s with
  | bind name value => exact change_of_bind hw rfl rfl _
  | bindRecord name table id => exact change_of_bind hw rfl rfl _
  | bindRawRecord name source => exact change_of_bind hw rfl rfl _
  | state name => exact change_of_onlyLooks hw rfl rfl
  | read name what => exact change_of_onlyLooks hw rfl rfl
  | render value => exact change_of_onlyLooks hw rfl rfl
  | compare a b => exact change_of_onlyLooks hw rfl rfl
  | assign name field value =>
    apply change_of_lookup rfl
    intro v hv
    apply (Term.yields_eval value).after hwk
    · intro after h
      exact .kept rfl (hkept.trans h)
    · intro item after _ _ h
      apply change_of_finish rfl hv (hkept.trans h)
      intro e he
      exact Entity.assign_entity he field item
  | delete name field =>
    apply change_of_lookup rfl
    intro v hv
    apply change_of_finish rfl hv hkept
    intro e _
    exact e.delete_entity field
  | construct name arguments =>
    apply change_of_lookup rfl
    intro v hv
    apply (Term.yields_evalItems arguments).after hwk
    · intro after h
      exact .kept rfl (hkept.trans h)
    · intro values after _ _ h
      apply change_of_finish rfl hv (hkept.trans h)
      intro e he
      exact Entity.construct_entity he values
  | append target value => exact change_of_content hw rfl .nothing
  | put target key value => exact change_of_content hw rfl .done
  | remove target key => exact change_of_content hw rfl .done
  | store key value =>
    apply (Term.yields_eval value).after hwk
    · intro after h
      exact .kept rfl (hkept.trans h)
    · intro item middle hv hi h
      have hmiddle := hkept.trans h
      apply (Term.yields_eval key).after (hmiddle.wellFormed hw)
      · intro after h
        exact .kept rfl (hmiddle.trans h)
      · intro k after hkey hk h
        have hs := addressed?_store.mpr ⟨middle, after, hv, hkey⟩
        exact change_of_put rfl hs (hmiddle.trans h) hk hi fun entries => .count entries.length
  | lookup key => exact change_of_onlyLooks hw rfl rfl
  | forget key =>
    apply (Term.yields_eval key).after hwk
    · intro after h
      exact .kept rfl (hkept.trans h)
    · intro k after hkey hk h
      exact change_of_take rfl (addressed?_forget hkey) (hkept.trans h) hk fun item => .found (some item)
  | keys => exact change_of_onlyLooks hw rfl rfl

end Step

namespace Workspace

variable {ws after : Workspace}

theorem WellFormed.bind (hw : ws.WellFormed) (name : String) {v : Value} (hv : v.WellFormed) :
    (ws.bind name v).WellFormed := by
  refine ⟨fun entry he => ?_, hw.dictionary⟩
  rcases List.mem_cons.mp he with rfl | he
  · exact hv
  · exact hw.bindings entry (List.mem_of_mem_filter he)

/-- A change in place reaches the items of the dictionary, and never a key. -/
theorem dictionary_write (hw : ws.WellFormed) (content : Value) : (ws.write content).dictionary =
    ws.dictionary.map fun entry => (entry.1, content.renew entry.2) := by
  have hkeyed := hw.dictionary.keyed
  refine List.map_congr_left fun entry he => ?_
  rw [update_of_digestible content (hkeyed.wellFormed entry he) (hkeyed.digestible entry he)]

theorem WellFormed.write (hw : ws.WellFormed) {content : Value} (hc : content.WellFormed) :
    (ws.write content).WellFormed := by
  constructor
  · exact List.forall_mem_map.mpr fun entry he => hc.renew (hw.bindings entry he)
  · rw [dictionary_write hw]
    exact hw.dictionary.mapItems content.renew fun entry _ h => hc.renew h

theorem WellFormed.step (hw : ws.WellFormed) (s : Step) : (ws.step s).2.WellFormed := by
  cases Step.change hw s with
  | kept hn h => exact h.wellFormed hw
  | bound hn name hs v hv h => exact h.wellFormed (hw.bind name hv)
  | restored hn name v hv h => exact h.wellFormed (hw.bind name (hw.bindings _ (mem_of_lookup hv)))
  | written content hs hc h => exact h.wellFormed (hw.write hc)
  | stored hn key item hs hk hi entries hp h =>
    exact h.wellFormed ⟨hw.bindings, hw.dictionary.put? hk hi hp⟩
  | forgotten hn key item hs hk rest ht h =>
    have hrest := Dictionary.take?_sublist hw.dictionary.keyed hk ht
    exact h.wellFormed ⟨hw.bindings, hw.dictionary.sublist hrest⟩

theorem WellFormed.run (hw : ws.WellFormed) (steps : List Step) : (ws.run steps).2.WellFormed := by
  induction steps generalizing ws with
  | nil => exact hw
  | cons s rest ih => exact ih (hw.step s)

end Workspace
end RecordLiteral
