import RecordLiteral.Proofs.Contents

/-! # Evaluation

Evaluating a term gives out identities and logs, but touches neither the variables nor the
dictionary, and in a well-formed workspace it gives a well-formed value.
-/
namespace RecordLiteral

open Value

namespace Workspace

/-- Everything that can be reached is well-formed. -/
structure WellFormed (ws : Workspace) : Prop where
  bindings : ∀ entry ∈ ws.bindings, entry.2.WellFormed
  dictionary : Dictionary.Sound ws.dictionary

theorem wellFormed_empty : empty.WellFormed := ⟨by simp [empty], Dictionary.sound_nil⟩

/-- Variables and dictionary are as before. -/
structure Kept (ws after : Workspace) : Prop where
  bindings : after.bindings = ws.bindings
  dictionary : after.dictionary = ws.dictionary

theorem Kept.refl (ws : Workspace) : Kept ws ws := ⟨rfl, rfl⟩

theorem Kept.unlogged (ws : Workspace) : Kept ws { ws with log := [] } := ⟨rfl, rfl⟩

theorem Kept.trans {ws middle after : Workspace} (h : Kept ws middle) (h' : Kept middle after) :
    Kept ws after :=
  ⟨h'.bindings.trans h.bindings, h'.dictionary.trans h.dictionary⟩

theorem Kept.wellFormed {ws after : Workspace} (h : Kept ws after) (hw : ws.WellFormed) :
    after.WellFormed := by
  obtain ⟨hb, hd⟩ := hw
  exact ⟨h.bindings ▸ hb, h.dictionary ▸ hd⟩

end Workspace

namespace Work

variable {α β : Type} {work : Work α} {next : α → Work β} {P : α → Prop} {Q : β → Prop}

def exec (work : Work α) (ws : Workspace) : Except Fault α × Workspace := work.run.run ws

theorem exec_pure (v : α) (ws : Workspace) : (pure v : Work α).exec ws = (.ok v, ws) := rfl

theorem exec_throw (fault : Fault) (ws : Workspace) :
    (throw fault : Work α).exec ws = (.error fault, ws) := rfl

theorem exec_get (ws : Workspace) : (get : Work Workspace).exec ws = (.ok ws, ws) := rfl

theorem exec_modify (f : Workspace → Workspace) (ws : Workspace) :
    (modify f : Work Unit).exec ws = (.ok (), f ws) := rfl

theorem exec_ofExcept (e : Except Fault α) (ws : Workspace) :
    (ofExcept e : Work α).exec ws = (e, ws) := by
  cases e <;> rfl

theorem exec_bind (ws : Workspace) :
    (work >>= next).exec ws = match work.exec ws with
      | (.ok v, after) => (next v).exec after
      | (.error fault, after) => (.error fault, after) := by
  cases hw : work.exec ws with
  | mk result after =>
    unfold exec at hw
    cases result with
    | ok v =>
      simp [exec, ExceptT.run_bind, StateT.run_bind, hw]
      rfl
    | error fault =>
      simp [exec, ExceptT.run_bind, StateT.run_bind, hw]
      rfl

theorem exec_bind_ok {ws after : Workspace} {v : α} (h : work.exec ws = (.ok v, after)) :
    (work >>= next).exec ws = (next v).exec after := by
  rw [exec_bind, h]

theorem exec_bind_error {ws after : Workspace} {fault : Fault}
    (h : work.exec ws = (.error fault, after)) :
    (work >>= next).exec ws = (.error fault, after) := by
  rw [exec_bind, h]

theorem exec_ofLogged (l : Logged α) (ws : Workspace) :
    (ofLogged l).exec ws = (l.result, { ws with log := ws.log ++ l.log }) := by
  rw [ofLogged, exec_bind, exec_modify]
  exact exec_ofExcept l.result _

theorem exec_lookup_some (ws : Workspace) {name : String} {v : Value}
    (h : ws.bindings.lookup name = some v) : (lookup name).exec ws = (.ok v, ws) := by
  rw [lookup, exec_bind, exec_get]
  simp only [h]
  rfl

theorem exec_lookup_none (ws : Workspace) {name : String} (h : ws.bindings.lookup name = none) :
    (lookup name).exec ws = (.error (.missingKey (String.ofList (Debug.text name.toList))), ws) := by
  rw [lookup, exec_bind, exec_get]
  simp only [h]
  rfl

/-- Work that keeps variables and dictionary, and gives results of a certain kind. -/
def Yields (work : Work α) (P : α → Prop) : Prop :=
  ∀ ws, ws.WellFormed → Workspace.Kept ws (work.exec ws).2 ∧ ∀ v, (work.exec ws).1 = .ok v → P v

theorem Yields.pure {v : α} (h : P v) : Yields (pure v) P := by
  intro ws _
  rw [exec_pure]
  exact ⟨.refl ws, fun w hw => Except.ok.inj hw ▸ h⟩

theorem Yields.throw (fault : Fault) : Yields (throw fault) P := by
  intro ws _
  rw [exec_throw]
  exact ⟨.refl ws, fun w hw => by cases hw⟩

theorem Yields.ofExcept {e : Except Fault α} (h : ∀ v, e = .ok v → P v) :
    Yields (MonadExcept.ofExcept e) P := by
  intro ws _
  rw [exec_ofExcept]
  exact ⟨.refl ws, h⟩

theorem Yields.bind (h : Yields work P) (hn : ∀ v, P v → Yields (next v) Q) :
    Yields (work >>= next) Q := by
  intro ws hws
  obtain ⟨kept, hp⟩ := h ws hws
  rw [exec_bind]
  cases hw : work.exec ws with
  | mk result after =>
    rw [hw] at kept hp
    cases result with
    | ok v =>
      obtain ⟨kept', hq⟩ := hn v (hp v rfl) after (kept.wellFormed hws)
      exact ⟨kept.trans kept', hq⟩
    | error fault => exact ⟨kept, fun w hw => by cases hw⟩

theorem yields_newIdent : Yields newIdent fun _ => True := by
  intro ws _
  exact ⟨⟨rfl, rfl⟩, fun _ _ => trivial⟩

theorem yields_ofLogged {l : Logged α} (h : ∀ v, l.result = .ok v → P v) :
    Yields (ofLogged l) P := by
  intro ws _
  rw [exec_ofLogged]
  exact ⟨⟨rfl, rfl⟩, h⟩

theorem yields_lookup (name : String) : Yields (lookup name) Value.WellFormed := by
  intro ws hws
  cases h : ws.bindings.lookup name with
  | none =>
    rw [exec_lookup_none ws h]
    exact ⟨.refl ws, fun v hv => by cases hv⟩
  | some v =>
    rw [exec_lookup_some ws h]
    refine ⟨.refl ws, fun w hw => ?_⟩
    cases hw
    exact hws.bindings _ (mem_of_lookup h)

/-- The elements of a set while it is built. -/
def Elements (vs : List Value) : Prop := ElementsApart vs ∧ ∀ v ∈ vs, Value.WellFormed v

theorem yields_addElement {elements : List Value} {v : Value} (h : Elements elements)
    (hw : Value.WellFormed v) : Yields (addElement elements v) Elements := by
  unfold addElement
  split
  · exact .throw _
  · exact .pure (h.1.addTo h.2 hw ‹_›)

end Work

namespace Term

open Work

mutual

theorem yields_eval (t : Term) : Yields t.eval Value.WellFormed := by
  cases t with
  | leaf l =>
    refine yields_newIdent.bind ?_
    intro ident _
    exact .pure .leaf
  | seq kind items =>
    refine (yields_evalItems items).bind ?_
    intro vs hvs
    refine yields_newIdent.bind ?_
    intro ident _
    exact .pure (wellFormed_seq.mpr hvs)
  | mapping kind entries =>
    refine (yields_evalEntries Dictionary.sound_nil entries).bind ?_
    intro vs hvs
    refine yields_newIdent.bind ?_
    intro ident _
    exact .pure (Dictionary.wellFormed_mapping_iff.mpr hvs)
  | set kind elements =>
    have hnil : Elements [] := ⟨⟨by simp, .nil⟩, by simp⟩
    refine (yields_evalElements hnil elements).bind ?_
    intro vs hvs
    exact .pure (wellFormed_set.mpr hvs)
  | record table id =>
    refine (yields_eval table).bind ?_
    intro v _
    refine (yields_eval id).bind ?_
    intro w hw
    exact yields_ofLogged fun r hr => hw.newRecord hr
  | rawRecord source =>
    refine (yields_eval source).bind ?_
    intro v _
    refine yields_ofLogged ?_
    intro r hr
    obtain ⟨l, rfl⟩ := leaf_of_newRawRecord hr
    exact .leaf
  | «variable» name => exact yields_lookup name
  | idOf name =>
    refine (yields_lookup name).bind ?_
    intro v hv
    exact .ofExcept fun field hf => hv.attribute? hf
  | item container key =>
    refine (yields_eval container).bind ?_
    intro v hv
    refine (yields_eval key).bind ?_
    intro k _
    exact .ofExcept fun item hi => hv.item? hi
  | fault reason => exact .throw reason

theorem yields_evalItems (ts : List Term) :
    Yields (evalItems ts) fun vs => ∀ v ∈ vs, Value.WellFormed v := by
  cases ts with
  | nil => exact .pure (by simp)
  | cons t rest =>
    refine (yields_eval t).bind ?_
    intro v hv
    refine (yields_evalItems rest).bind ?_
    intro vs hvs
    exact .pure (List.forall_mem_cons.mpr ⟨hv, hvs⟩)

theorem yields_evalElements {elements : List Value} (h : Elements elements) (ts : List Term) :
    Yields (evalElements elements ts) Elements := by
  cases ts with
  | nil => exact .pure h
  | cons t rest =>
    refine (yields_eval t).bind ?_
    intro v hv
    refine (yields_addElement h hv).bind ?_
    intro vs hvs
    exact yields_evalElements hvs rest

theorem yields_evalEntries {entries : List (Value × Value)} (h : Dictionary.Sound entries)
    (ts : List (Term × Term)) : Yields (evalEntries entries ts) Dictionary.Sound := by
  cases ts with
  | nil => exact .pure h
  | cons t rest =>
    obtain ⟨key, value⟩ := t
    refine (yields_eval key).bind ?_
    intro k hk
    refine (yields_eval value).bind ?_
    intro v hv
    have hput : Yields (ofExcept (Dictionary.put? entries k v)) Dictionary.Sound :=
      .ofExcept fun result hr => h.put? hk hv hr
    refine hput.bind ?_
    intro vs hvs
    exact yields_evalEntries hvs rest

end

end Term
end RecordLiteral
