import RecordLiteral.Proofs.Hashing
import RecordLiteral.Proofs.Isolation

/-! # Records as keys

What the dictionary holds under a key depends on what was stored and forgotten under equal
keys. Nothing that is changed in place reaches a key, so a record that could be stored
stays where it is, and every record equal to it finds what is stored there.
-/
namespace RecordLiteral

open Value

/-- To a dictionary a record is equal to the keys of its plain form. -/
theorem Value.record_plainEquals_iff {table : String} {id other : Value}
    (hr : WellFormed (.record table id)) (ho : WellFormed other)
    (hdr : Digestible (.record table id)) (hdo : Digestible other) :
    plainEquals (.record table id) other = .equal ↔
      (Value.record table id).plainForm = other.plainForm := by
  rw [← itemEquals_eq_plainEquals rfl]
  exact (equal_iff_forms _ _ hr ho).1 hdr hdo

namespace Workspace

/-- What a term stands for, unless its evaluation fails. -/
def valueOf? (ws : Workspace) (t : Term) : Option Value :=
  (t.eval.exec { ws with log := [] }).1.toOption

/-- No step stores or forgets an entry for a key equal to this one. -/
def Spares (ws : Workspace) (key : Value) : List Step → Prop
  | [] => True
  | s :: rest =>
    (∀ e ∈ ws.addressed? s, Digestible e.1 → plainEquals key e.1 ≠ .equal) ∧
      (ws.step s).2.Spares key rest

instance decidableSpares (ws : Workspace) (key : Value) :
    (steps : List Step) → Decidable (ws.Spares key steps)
  | [] => .isTrue trivial
  | s :: rest =>
    have := decidableSpares (ws.step s).2 key rest
    inferInstanceAs (Decidable ((∀ e ∈ ws.addressed? s, _) ∧ _))

variable {ws : Workspace} {key : Value}

section Dictionary

theorem map_renewed_of_none {s : Step} (h : ws.written? s = none) (found : Except Fault (Option Value)) :
    found.map (Option.map (ws.renewed s)) = found := by
  have hid : ws.renewed s = id := funext (renewed_of_none h)
  rw [hid, Option.map_id]
  cases found <;> rfl

/-- A step that is about no equal key leaves what a lookup finds, but for what the step writes
in place. -/
theorem get?_step (hw : ws.WellFormed) (hk : key.WellFormed) (hd : Digestible key) {s : Step}
    (hs : ∀ e ∈ ws.addressed? s, e.1.WellFormed → Digestible e.1 → e.1.plainForm ≠ key.plainForm) :
    Dictionary.get? (ws.step s).2.dictionary key =
      (Dictionary.get? ws.dictionary key).map (Option.map (ws.renewed s)) := by
  have hkeyed := hw.dictionary.keyed
  cases Step.change hw s with
  | kept hn h => rw [h.dictionary, map_renewed_of_none hn]
  | bound hn name ho v hv h =>
    rw [h.dictionary, map_renewed_of_none hn]
    rfl
  | restored hn name v hv h =>
    rw [h.dictionary, map_renewed_of_none hn]
    rfl
  | written content hc hwc h =>
    rw [h.dictionary, dictionary_write hw, Dictionary.get?_mapItems, funext (renewed_of_some hc)]
  | stored hn k item ha hwk hi entries hp h =>
    have hne := hs _ ha hwk (Dictionary.digestible_of_put? hp)
    rw [h.dictionary, map_renewed_of_none hn]
    exact Dictionary.get?_put?_ne hkeyed hwk hp hk hd hne
  | forgotten hn k item ha hwk rest ht h =>
    have hne := hs _ ha hwk (Dictionary.digestible_of_take? ht)
    rw [h.dictionary, map_renewed_of_none hn]
    exact Dictionary.get?_take?_ne hkeyed hwk ht hk hd hne

theorem get?_run {table : String} {id : Value} (hw : ws.WellFormed)
    (hk : (Value.record table id).WellFormed) (hd : Digestible (.record table id)) {steps : List Step}
    (hs : ws.Spares (.record table id) steps) :
    Dictionary.get? (ws.run steps).2.dictionary (.record table id) =
      (Dictionary.get? ws.dictionary (.record table id)).map
        (Option.map fun item => ws.contentAfter item steps) := by
  induction steps generalizing ws with
  | nil =>
    show Dictionary.get? ws.dictionary _ = _
    cases Dictionary.get? ws.dictionary (.record table id) with
    | error fault => rfl
    | ok found => cases found <;> rfl
  | cons s rest ih =>
    obtain ⟨hstep, hrest⟩ := hs
    -- Of keys that can be digested, those equal to the record are those of its plain form.
    have hone := get?_step hw hk hd fun e he hwe hde heq =>
      hstep e he hde ((record_plainEquals_iff hk hwe hd hde).mpr heq.symm)
    show Dictionary.get? ((ws.step s).2.run rest).2.dictionary _ = _
    rw [ih (hw.step s) hrest, hone]
    cases Dictionary.get? ws.dictionary (.record table id) with
    | error fault => rfl
    | ok found => cases found <;> rfl

end Dictionary

section Answers

theorem exec_of_valueOf? {t : Term} (h : ws.valueOf? t = some key) :
    ∃ after, t.eval.exec { ws with log := [] } = (.ok key, after) := by
  unfold valueOf? at h
  cases he : t.eval.exec { ws with log := [] } with
  | mk result after =>
    rw [he] at h
    cases result with
    | ok v =>
      cases h
      exact ⟨after, rfl⟩
    | error fault => cases h

theorem wellFormed_of_valueOf? (hw : ws.WellFormed) {t : Term} (h : ws.valueOf? t = some key) :
    key.WellFormed := by
  obtain ⟨after, he⟩ := exec_of_valueOf? h
  exact (Term.yields_eval t _ ((Kept.unlogged ws).wellFormed hw)).2 key (by rw [he])

theorem lookup_answer (hw : ws.WellFormed) {t : Term} (h : ws.valueOf? t = some key) :
    (ws.step (.lookup t)).1.result = (Dictionary.get? ws.dictionary key).map .found := by
  have hunlogged := Kept.unlogged ws
  obtain ⟨after, he⟩ := exec_of_valueOf? h
  obtain ⟨kept, -⟩ := Term.yields_eval t _ (hunlogged.wellFormed hw)
  rw [he] at kept
  show ((Step.lookup t).perform.exec { ws with log := [] }).1 = _
  rw [Step.perform, Work.exec_bind_ok he, Work.exec_bind_ok (Work.exec_get after), Work.exec_bind,
    Work.exec_ofExcept, (hunlogged.trans kept).dictionary]
  cases Dictionary.get? ws.dictionary key <;> rfl

theorem perform_store (hw : ws.WellFormed) {sought value : Term} {item : Value}
    (ha : ws.addressed? (.store sought value) = some (key, some item)) :
    key.WellFormed ∧ item.WellFormed ∧ ∃ after, (Step.store sought value).perform.exec { ws with log := [] } =
      match Dictionary.put? ws.dictionary key item with
      | .ok entries => (.ok (.count entries.length), { after with dictionary := entries })
      | .error fault => (.error fault, after) := by
  obtain ⟨middle, after, hv, hk⟩ := Step.addressed?_store.mp ha
  have hunlogged := Kept.unlogged ws
  obtain ⟨hitem, hwi⟩ := Term.yields_eval value _ (hunlogged.wellFormed hw)
  rw [hv] at hitem hwi
  have hmiddle := hunlogged.trans hitem
  obtain ⟨hkey, hwk⟩ := Term.yields_eval sought _ (hmiddle.wellFormed hw)
  rw [hk] at hkey hwk
  refine ⟨hwk key rfl, hwi item rfl, after, ?_⟩
  rw [Step.perform, Work.exec_bind_ok hv, Work.exec_bind_ok hk, Work.exec_bind_ok (Work.exec_get after),
    Work.exec_bind, Work.exec_ofExcept, (hmiddle.trans hkey).dictionary]
  cases Dictionary.put? ws.dictionary key item <;> rfl

/-- A store that answers has put its entry into the dictionary. -/
theorem put?_of_store (hw : ws.WellFormed) {sought value : Term} {item : Value} {answer : Answer}
    (ha : ws.addressed? (.store sought value) = some (key, some item))
    (hok : (ws.step (.store sought value)).1.result = .ok answer) :
    Dictionary.put? ws.dictionary key item = .ok (ws.step (.store sought value)).2.dictionary := by
  obtain ⟨-, -, after, hperform⟩ := perform_store hw ha
  change ((Step.store sought value).perform.exec { ws with log := [] }).1 = _ at hok
  change _ = Except.ok ((Step.store sought value).perform.exec { ws with log := [] }).2.dictionary
  rw [hperform] at hok ⊢
  cases hp : Dictionary.put? ws.dictionary key item with
  | ok entries => rfl
  | error fault =>
    rw [hp] at hok
    cases hok

/-- An equal record finds what the record does. -/
theorem get?_of_plainEquals {table other : String} {id id' item : Value} (hw : ws.WellFormed)
    (hk : (Value.record table id).WellFormed) (hd : Digestible (.record table id))
    (ho : (Value.record other id').WellFormed) (hdo : Digestible (.record other id'))
    (heq : plainEquals (.record table id) (.record other id') = .equal)
    (h : Dictionary.get? ws.dictionary (.record table id) = .ok (some item)) :
    Dictionary.get? ws.dictionary (.record other id') = .ok (some item) := by
  have hkeyed := hw.dictionary.keyed
  have hforms := (record_plainEquals_iff hk ho hd hdo).mp heq
  obtain ⟨entry, he, hf, hi⟩ := (Dictionary.get?_eq_some hkeyed hk hd).mp h
  exact (Dictionary.get?_eq_some hkeyed ho hdo).mpr ⟨entry, he, hf.trans hforms, hi⟩

/-- A record equal to no key finds nothing; one whose id has no frozen form with a digest is
refused. -/
theorem get?_of_apart {table : String} {id : Value} (hw : ws.WellFormed)
    (hk : (Value.record table id).WellFormed)
    (hapart : ∀ entry ∈ ws.dictionary, plainEquals (.record table id) entry.1 ≠ .equal) :
    Dictionary.get? ws.dictionary (.record table id) =
      (id.freeze?.bind digest?).map fun _ => none := by
  have hkeyed := hw.dictionary.keyed
  have hid := (wellFormed_record.mp hk).1
  cases hfrozen : id.freeze?.bind digest? with
  | error fault =>
    exact Dictionary.get?_of_not_digestible ((hid.record_digestFault_iff table).mpr hfrozen)
  | ok part =>
    have hdigest := hid.digest?_record table
    rw [hfrozen] at hdigest
    obtain ⟨hd, -⟩ := digest?_eq_ok.mp hdigest
    refine (Dictionary.get?_eq_none hkeyed hk hd).mpr fun entry he heq => hapart entry he ?_
    exact (record_plainEquals_iff hk (hkeyed.wellFormed entry he) hd (hkeyed.digestible entry he)).mpr heq.symm

/-- Once an item is stored under a record, then whatever is done that stores and forgets
nothing under an equal key: every record equal to it finds the item, if its id has a frozen form
that can be digested, and a record equal to no key finds nothing. The item found is the same
object, with the content that it has for everyone who holds it; one that cannot change is found
as it was. -/
theorem lookup_stored_record {earlier later : List Step} {sought value : Term} {table : String}
    {id item : Value} {answer : Answer}
    (hentry : (empty.run earlier).2.addressed? (.store sought value) = some (.record table id, some item))
    (hanswer : ((empty.run earlier).2.step (.store sought value)).1.result = .ok answer)
    (hspared : ((empty.run earlier).2.step (.store sought value)).2.Spares (.record table id) later) :
    let stored := ((empty.run earlier).2.step (.store sought value)).2
    let after := (stored.run later).2
    let found := stored.contentAfter item later
    (∀ t other id' frozen, after.valueOf? t = some (.record other id') →
        id'.freeze? = .ok frozen → Digestible frozen →
        plainEquals (.record table id) (.record other id') = .equal →
        (after.step (.lookup t)).1.result = .ok (.found (some found))) ∧
      (∀ t other id', after.valueOf? t = some (.record other id') →
        (∀ entry ∈ after.dictionary, plainEquals (.record other id') entry.1 ≠ .equal) →
        (after.step (.lookup t)).1.result =
          (id'.freeze?.bind digest?).map fun _ => .found none) ∧
      found.ident? = item.ident? ∧ (Digestible item → item.cut [] = item → found = item) ∧
      ∀ name, stored.bindings.lookup name = some item → (∀ s ∈ later, s.boundName? ≠ some name) →
        after.bindings.lookup name = some found := by
  intro stored after found
  have hbefore := wellFormed_empty.run earlier
  have hstored : stored.WellFormed := hbefore.step _
  have hafter : after.WellFormed := hstored.run later
  obtain ⟨hk, hi, -⟩ := perform_store hbefore hentry
  have hput := put?_of_store hbefore hentry hanswer
  have hd := Dictionary.digestible_of_put? hput
  have hfound : Dictionary.get? after.dictionary (.record table id) =
      .ok (some found) := by
    obtain ⟨entries, hp, hget⟩ : ∃ entries,
        Dictionary.put? (empty.run earlier).2.dictionary (.record table id) item = .ok entries ∧
          Dictionary.get? entries (.record table id) = .ok (some item) :=
      Dictionary.get?_put? hbefore.dictionary.keyed hk hd hk hd rfl
    cases hp.symm.trans hput
    rw [get?_run hstored hk hd hspared, hget]
    rfl
  refine ⟨?_, ?_, ident?_contentAfter item later, ?_, ?_⟩
  · intro t other id' frozen ht hfrozen hdf heq
    have ho := wellFormed_of_valueOf? hafter ht
    have hdo : Digestible (.record other id') :=
      digestible_record.mpr (freezable_of_freeze? hfrozen hdf)
    rw [lookup_answer hafter ht, get?_of_plainEquals hafter hk hd ho hdo heq hfound]
    rfl
  · intro t other id' ht hapart
    rw [lookup_answer hafter ht, get?_of_apart hafter (wellFormed_of_valueOf? hafter ht) hapart]
    cases id'.freeze?.bind digest? <;> rfl
  · intro hdi hc
    exact contentAfter_of_digestible hi hdi hc later
  · intro name hb hs
    exact run_binding hstored hb hs

/-- A record stays where it is while the list that it was made from grows, its attributes are
written, and something is stored under another record. What is stored grows with its list. -/
theorem lookup_stored_record_list_grown :
    let one := Term.leaf (.int 1)
    let earlier : List Step := [.bind "l" (.seq (.list 0) [one]), .bind "v" (.seq (.list 0) []),
      .bindRecord "k" (.leaf (.text "t")) (.variable "l")]
    let stored := ((empty.run earlier).2.step (.store (.variable "k") (.variable "v"))).2
    let later : List Step := [.append (.variable "l") one, .append (.variable "v") one,
      .assign "k" "_id" (.leaf .null), .construct "k" [.leaf (.text "u"), .leaf (.int 0)],
      .store (.record (.leaf (.text "t")) (.variable "l")) (.leaf .null)]
    let equal := Term.record (.leaf (.text "t")) (.seq (.tuple none) [.leaf (.float (.finite false 1023 0))])
    let other := Term.record (.leaf (.text "t")) one
    ((stored.run later).2.step (.lookup equal)).1.result =
        .ok (.found (some (.seq (.list 2) [.leaf (.int 1)]))) ∧
      ((stored.run later).2.step (.lookup other)).1.result = .ok (.found none) := by
  intro one earlier stored later equal other
  have hentry : (empty.run earlier).2.addressed? (.store (.variable "k") (.variable "v")) =
      some (.record "t" (.seq (.tuple none) [.leaf (.int 1)]), some (.seq (.list 2) [])) := by
    decide +kernel
  have hspared : stored.Spares (.record "t" (.seq (.tuple none) [.leaf (.int 1)])) later := by
    decide +kernel
  have hcontent : stored.contentAfter (.seq (.list 2) []) later = .seq (.list 2) [.leaf (.int 1)] := by
    decide +kernel
  have hanswer : ((empty.run earlier).2.step (.store (.variable "k") (.variable "v"))).1.result =
      .ok (.count 1) := rfl
  have hequals : (stored.run later).2.valueOf? equal =
      some (.record "t" (.seq (.tuple none) [.leaf (.float (.finite false 1023 0))])) := by decide +kernel
  have hothers : (stored.run later).2.valueOf? other = some (.record "t" (.leaf (.int 1))) := by
    decide +kernel
  obtain ⟨hequal, hapart, -⟩ := lookup_stored_record hentry hanswer hspared
  have hfound := hequal equal "t" _ _ hequals rfl (by decide +kernel) (by decide +kernel)
  have hnothing := hapart other "t" _ hothers (by decide +kernel)
  rw [hcontent] at hfound
  unfold stored
  exact ⟨hfound, hnothing⟩

end Answers

end Workspace
end RecordLiteral
