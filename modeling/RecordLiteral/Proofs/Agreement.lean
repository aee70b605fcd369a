import Mathlib.Data.List.Nodup
import RecordLiteral.Proofs.Comparison

/-! # Comparisons decide forms

A comparison of well-formed values finds them equal exactly when their forms are the
same, so both equalities are equivalences and agree with digests. A comparison of what
can be digested, or of what has a digestible frozen form, never meets a signaling number
and always has an answer.
-/
namespace RecordLiteral.Value

/-- Comparisons of what can be digested, and of what can be frozen, have an answer. -/
theorem compare_ne_signals (a b : Value) (ha : WellFormed a) (hb : WellFormed b) :
    (Digestible a → Digestible b → itemEquals a b ≠ .signals) ∧
      (Freezable a → Freezable b → deepEquals a b ≠ .signals) := by
  induction a, b using alignedInduction with
  | leaf a b =>
    constructor
    · intro hda hdb
      exact itemEquals_leaf_ne_signals (digestible_leaf.mp hda) (digestible_leaf.mp hdb)
    · intro hfa hfb
      exact deepEquals_leaf_ne_signals hfa.2 hfb.2
  | seq j k xs ys ih =>
    have hx := wellFormed_seq.mp ha
    have hy := wellFormed_seq.mp hb
    have part : ∀ x ∈ xs, ∀ y ∈ ys, _ := fun x hx' y hy' =>
      ih x (List.mem_append_left _ hx') y (List.mem_append_right _ hy') (hx x hx') (hy y hy')
    constructor
    · intro hda hdb
      obtain ⟨⟨i, rfl⟩, hdx⟩ := hda.tuple
      obtain ⟨⟨i', rfl⟩, hdy⟩ := hdb.tuple
      apply itemEquals_tuple_ne_signals
      intro x hx y hy
      exact (part x hx y hy).1 (hdx x hx) (hdy y hy)
    · intro hfa hfb
      rw [freezable_seq] at hfa hfb
      apply deepEquals_seq_ne_signals
      intro x hx y hy
      exact (part x hx y hy).2 (hfa x hx) (hfb y hy)
  | mapping j k xs ys ih =>
    obtain ⟨apartx, hkx, hix⟩ := wellFormed_mapping.mp ha
    obtain ⟨aparty, hky, hiy⟩ := wellFormed_mapping.mp hb
    refine ⟨fun hda _ => absurd hda not_digestible_mapping, fun hfa hfb => ?_⟩
    rw [freezable_mapping] at hfa hfb
    apply deepEquals_mapping_ne_signals
    · intro e he f hf
      have key := (ih f (List.mem_append_right _ hf) e (List.mem_append_left _ he)).1
      exact (key (hky f hf) (hkx e he)).1 (hfb f hf).1 (hfa e he).1
    · intro e he f hf
      have item := (ih e (List.mem_append_left _ he) f (List.mem_append_right _ hf)).2
      exact (item (hix e he) (hiy f hf)).2 (hfa e he).2 (hfb f hf).2
  | set j k xs ys ih =>
    obtain ⟨apartx, hx⟩ := wellFormed_set.mp ha
    obtain ⟨aparty, hy⟩ := wellFormed_set.mp hb
    have hp : plainEquals (.set j xs) (.set k ys) ≠ .signals := by
      apply plainEquals_set_ne_signals
      intro x hx' y hy'
      have element := ih y (List.mem_append_right _ hy') x (List.mem_append_left _ hx')
      exact (element (hy y hy') (hx x hx')).1 (aparty.digestible y hy') (apartx.digestible x hx')
    rw [itemEquals_set, deepEquals_set]
    exact ⟨fun _ _ => hp, fun _ _ => hp⟩
  | record t u i j ih =>
    have hd := (ih (wellFormed_record.mp ha).1 (wellFormed_record.mp hb).1).2
    rw [itemEquals_record, deepEquals_record, digestible_record, digestible_record,
      freezable_record, freezable_record]
    split
    · exact ⟨hd, hd⟩
    · simp
  | apart a b h => simp [itemEquals_of_not_aligned h, deepEquals_of_not_aligned h]

section Forms
variable {xs ys : List Value}

theorem forall₂_iff_map_eq {α : Type} {R : Value → Value → Prop} {f : Value → α}
    (h : ∀ x ∈ xs, ∀ y ∈ ys, R x y ↔ f x = f y) : List.Forall₂ R xs ys ↔ xs.map f = ys.map f := by
  induction xs generalizing ys with
  | nil => cases ys <;> simp
  | cons x xs ih =>
    cases ys with
    | nil => simp
    | cons y ys =>
      have hxy := h x List.mem_cons_self y List.mem_cons_self
      have ih := ih fun x hx y hy => h x (List.mem_cons_of_mem _ hx) y (List.mem_cons_of_mem _ hy)
      simp [hxy, ih]

section Images
variable {α β γ : Type} {f : α → β} {g : α → γ} {l m : List α}

/-- What one function does not tell apart may be replaced by what another makes of it, place by
place. -/
theorem map_eq_map_of_imp (h : ∀ x ∈ l, ∀ y ∈ m, f x = f y → g x = g y) (heq : l.map f = m.map f) :
    l.map g = m.map g := by
  induction l generalizing m with
  | nil =>
    cases m with
    | nil => rfl
    | cons y m => cases heq
  | cons x l ih =>
    cases m with
    | nil => cases heq
    | cons y m =>
      obtain ⟨hxy, hrest⟩ := List.cons.inj heq
      have hg := h x List.mem_cons_self y List.mem_cons_self hxy
      have ih := ih (fun x hx y hy => h x (List.mem_cons_of_mem _ hx) y (List.mem_cons_of_mem _ hy)) hrest
      rw [List.map_cons, List.map_cons, hg, ih]

/-- The same in any order. -/
theorem perm_map_of_imp (h : ∀ x ∈ l, ∀ y ∈ m, f x = f y → g x = g y)
    (hp : (l.map f).Perm (m.map f)) : (l.map g).Perm (m.map g) := by
  induction l generalizing m with
  | nil =>
    have hm : m = [] := by simpa using hp.symm.eq_nil
    rw [hm]
  | cons x l ih =>
    obtain ⟨y, hy, hyx⟩ := List.mem_map.mp (hp.subset List.mem_cons_self)
    obtain ⟨u, v, rfl⟩ := List.append_of_mem hy
    have hmiddle : (u ++ y :: v).Perm (y :: (u ++ v)) := List.perm_middle
    have hrest : (l.map f).Perm ((u ++ v).map f) := by
      have hp := hp.trans (hmiddle.map f)
      rwa [List.map_cons, List.map_cons, hyx, List.perm_cons] at hp
    have hg := h x List.mem_cons_self y hy hyx.symm
    have ih := ih (fun x hx z hz => h x (List.mem_cons_of_mem _ hx) z
      (hmiddle.symm.subset (List.mem_cons_of_mem _ hz))) hrest
    rw [List.map_cons, hg]
    exact (ih.cons (g y)).trans (hmiddle.map g).symm

theorem map_eq_map_iff_zip {f : α → γ} {g : β → γ} {l : List α} {m : List β} :
    l.map f = m.map g ↔ l.length = m.length ∧ ∀ p ∈ l.zip m, f p.1 = g p.2 := by
  induction l generalizing m with
  | nil => cases m <;> simp
  | cons x l ih => cases m <;> simp [ih, and_left_comm]

theorem nodup_map_of_imp (h : ∀ x ∈ l, ∀ y ∈ l, g x = g y → f x = f y) (hl : (l.map f).Nodup) :
    (l.map g).Nodup := by
  rw [List.Nodup, List.pairwise_map] at *
  exact hl.imp_of_mem fun hx hy hne heq => hne (h _ hx _ hy heq)

/-- Where the members are told apart by one function, each has but one counterpart by it; so what
another function makes of the two is the same, if it is so of the lists. -/
theorem eq_of_perm_map {x y : α} (hp : (l.map g).Perm (m.map g)) (hm : (m.map f).Nodup)
    (h : ∀ x ∈ l, ∀ y ∈ m, g x = g y → f x = f y) (hx : x ∈ l) (hy : y ∈ m) (hxy : f x = f y) :
    g x = g y := by
  obtain ⟨z, hz, hzx⟩ := List.mem_map.mp (hp.subset (List.mem_map_of_mem hx))
  have hzy : f z = f y := (h x hx z hz hzx.symm).symm.trans hxy
  rw [← hzx, List.inj_on_of_nodup_map hm hz hy hzy]

end Images

theorem map_subset_map_iff {α β : Type} {f : α → β} {l m : List α} :
    l.map f ⊆ m.map f ↔ ∀ x ∈ l, ∃ y ∈ m, f y = f x := by
  constructor
  · intro h x hx
    exact List.mem_map.mp (h (List.mem_map_of_mem hx))
  · intro h z hz
    obtain ⟨x, hx, rfl⟩ := List.mem_map.mp hz
    exact List.mem_map.mpr (h x hx)

theorem isFor_iff_of_itemEquals {a b : Value} (ha : WellFormed a) (hb : WellFormed b)
    (hda : Digestible a) (hdb : Digestible b)
    (h : itemEquals a b = .equal ↔ a.plainForm = b.plainForm) :
    isFor a b = .equal ↔ a.plainForm = b.plainForm := by
  rw [isFor_eq_equal, h, and_iff_right_iff_imp]
  intro hf
  rw [← ha.digest_plainForm hda, hf, hb.digest_plainForm hdb]

theorem pairwise_ne_iff_nodup (h : ∀ x ∈ xs, ∀ y ∈ xs, isFor x y = .equal ↔ x.plainForm = y.plainForm) :
    (xs.Pairwise fun x y => isFor x y ≠ .equal) ↔ (xs.map plainForm).Nodup := by
  rw [List.Nodup, List.pairwise_map]
  exact List.Pairwise.iff_of_mem fun hx hy => not_congr (h _ hx _ hy)

theorem plainEquals_set_eq_equal {j k : SetKind}
    (h : ∀ x ∈ xs ++ ys, ∀ y ∈ xs ++ ys, isFor x y = .equal ↔ x.plainForm = y.plainForm)
    (hs : ∀ x ∈ xs, ∀ y ∈ ys, isFor y x ≠ .signals)
    (apart : xs.Pairwise fun x y => isFor x y ≠ .equal) :
    plainEquals (.set j xs) (.set k ys) = .equal ↔
      arranged (plainForms xs) = arranged (plainForms ys) := by
  have hnodup : (xs.map plainForm).Nodup :=
    (pairwise_ne_iff_nodup fun x hx y hy =>
      h x (List.mem_append_left _ hx) y (List.mem_append_left _ hy)).mp apart
  have hsub : allAmong xs ys = .equal ↔ xs.map plainForm ⊆ ys.map plainForm := by
    rw [allAmong_eq_equal, map_subset_map_iff]
    refine forall₂_congr fun x hx => ?_
    rw [isAmong_eq_equal (hs x hx)]
    exact exists_congr fun y => and_congr_right fun hy =>
      h y (List.mem_append_right _ hy) x (List.mem_append_left _ hx)
  rw [plainEquals_set, arranged_eq_iff, plainForms_eq_map, plainForms_eq_map]
  split
  · rename_i hlen
    rw [hsub, perm_iff_subset hnodup (by simp [hlen])]
  · rename_i hlen
    simp only [reduceCtorEq, false_iff]
    intro hp
    exact hlen (by simpa using hp.length_eq)

theorem deepEntries_iff_perm {xs ys : List (Value × Value)} (hlen : xs.length = ys.length)
    (hkeys : ∀ e ∈ xs ++ ys, ∀ f ∈ xs ++ ys,
      isFor e.1 f.1 = .equal ↔ e.1.plainForm = f.1.plainForm)
    (hs : ∀ e ∈ xs, ∀ f ∈ ys, isFor f.1 e.1 ≠ .signals)
    (hd : ∀ e ∈ xs, ∀ f ∈ ys, deepEquals e.2 f.2 = .equal ↔ e.2.form = f.2.form)
    (apartx : xs.Pairwise fun e f => isFor e.1 f.1 ≠ .equal)
    (aparty : ys.Pairwise fun e f => isFor e.1 f.1 ≠ .equal) :
    deepEntries xs ys = .equal ↔ arranged (entryForms xs) = arranged (entryForms ys) := by
  have hl : ∀ e ∈ xs, e ∈ xs ++ ys := fun e he => List.mem_append_left _ he
  have hr : ∀ e ∈ ys, e ∈ xs ++ ys := fun e he => List.mem_append_right _ he
  have hnodup : (entryForms xs).Nodup := by
    rw [entryForms_eq_map, List.Nodup, List.pairwise_map]
    refine apartx.imp_of_mem fun {e f} he hf hne heq => hne ?_
    exact (hkeys e (hl e he) f (hl f hf)).mpr (Prod.mk.inj heq).1
  have hone : ∀ e ∈ xs,
      ys.Pairwise fun f g => ¬ (isFor f.1 e.1 = .equal ∧ isFor g.1 e.1 = .equal) := by
    intro e he
    refine aparty.imp_of_mem fun {f g} hf hg hne hboth => hne ?_
    have hfe := (hkeys f (hr f hf) e (hl e he)).mp hboth.1
    have hge := (hkeys g (hr g hg) e (hl e he)).mp hboth.2
    rw [hkeys f (hr f hf) g (hr g hg), hfe, hge]
  -- As many entries with distinct keys on both sides: all of one among the other is enough.
  rw [arranged_eq_iff, perm_iff_subset hnodup (by simp [hlen]), deepEntries_eq_equal,
    entryForms_eq_map, entryForms_eq_map, map_subset_map_iff]
  refine forall₂_congr fun e he => ?_
  rw [deepAt_eq_equal (hs e he) (hone e he)]
  refine exists_congr fun f => and_congr_right fun hf => ?_
  rw [hkeys f (hr f hf) e (hl e he), hd e he f hf, Prod.mk.injEq, eq_comm (a := e.2.form)]

theorem itemEquals_tuple_eq_equal {i i' : Option Ident}
    (h : ∀ x ∈ xs, ∀ y ∈ ys, itemEquals x y = .equal ↔ x.plainForm = y.plainForm) :
    itemEquals (.seq (.tuple i) xs) (.seq (.tuple i') ys) = .equal ↔
      (Value.seq (.tuple i) xs).plainForm = (Value.seq (.tuple i') ys).plainForm := by
  rw [itemEquals, plainEquals]
  split
  · rename_i hsame
    simp [eq_of_same hsame]
  · have hitems := forall₂_iff_map_eq (R := fun x y => itemEquals x y = .equal) h
    rw [plainItems_eq_equal, hitems]
    simp [plainForm]

theorem deepEquals_seq_eq_equal {j k : SeqKind}
    (h : ∀ x ∈ xs, ∀ y ∈ ys, deepEquals x y = .equal ↔ x.form = y.form) :
    deepEquals (.seq j xs) (.seq k ys) = .equal ↔
      (Value.seq j xs).form = (Value.seq k ys).form := by
  rw [deepEquals_seq]
  split
  · rename_i hsame
    simp [eq_of_same hsame]
  · split
    · rename_i hlen
      have hitems := forall₂_iff_map_eq (R := fun x y => deepEquals x y = .equal) h
      rw [deepItems_eq_equal hlen, hitems]
      simp [form]
    · rename_i hlen
      simp only [form, forms_eq_map, Form.seq.injEq, reduceCtorEq, false_iff]
      intro heq
      exact hlen (by simpa using congrArg List.length heq)

theorem deepEquals_mapping_eq_equal {j k : MapKind} {xs ys : List (Value × Value)}
    (hkeys : ∀ e ∈ xs ++ ys, ∀ f ∈ xs ++ ys,
      isFor e.1 f.1 = .equal ↔ e.1.plainForm = f.1.plainForm)
    (hs : ∀ e ∈ xs, ∀ f ∈ ys, isFor f.1 e.1 ≠ .signals)
    (hd : ∀ e ∈ xs, ∀ f ∈ ys, deepEquals e.2 f.2 = .equal ↔ e.2.form = f.2.form)
    (apartx : KeysApart xs) (aparty : KeysApart ys) :
    deepEquals (.mapping j xs) (.mapping k ys) = .equal ↔
      (Value.mapping j xs).form = (Value.mapping k ys).form := by
  rw [deepEquals_mapping]
  split
  · rename_i hsame
    simp [eq_of_same hsame]
  · split
    · rename_i hlen
      rw [form, form, Form.mapping.injEq]
      exact deepEntries_iff_perm hlen hkeys hs hd apartx.apart aparty.apart
    · rename_i hlen
      simp only [form, Form.mapping.injEq, arranged_eq_iff, entryForms_eq_map, reduceCtorEq,
        false_iff]
      intro hp
      exact hlen (by simpa using hp.length_eq)

/-- Keys and elements are compared by plain forms, and all values deeply by forms. -/
theorem equal_iff_forms (a b : Value) (ha : WellFormed a) (hb : WellFormed b) :
    (Digestible a → Digestible b → (itemEquals a b = .equal ↔ a.plainForm = b.plainForm)) ∧
      (deepEquals a b = .equal ↔ a.form = b.form) := by
  induction a, b using alignedInduction with
  | leaf a b => exact ⟨fun _ _ => itemEquals_leaf_eq_equal, deepEquals_leaf_eq_equal⟩
  | seq j k xs ys ih =>
    have hx := wellFormed_seq.mp ha
    have hy := wellFormed_seq.mp hb
    have part : ∀ x ∈ xs, ∀ y ∈ ys, _ := fun x hx' y hy' =>
      ih x (List.mem_append_left _ hx') y (List.mem_append_right _ hy') (hx x hx') (hy y hy')
    constructor
    · intro hda hdb
      obtain ⟨⟨i, rfl⟩, hdx⟩ := hda.tuple
      obtain ⟨⟨i', rfl⟩, hdy⟩ := hdb.tuple
      apply itemEquals_tuple_eq_equal
      intro x hx y hy
      exact (part x hx y hy).1 (hdx x hx) (hdy y hy)
    · apply deepEquals_seq_eq_equal
      intro x hx y hy
      exact (part x hx y hy).2
  | mapping j k xs ys ih =>
    obtain ⟨apartx, hkx, hix⟩ := wellFormed_mapping.mp ha
    obtain ⟨aparty, hky, hiy⟩ := wellFormed_mapping.mp hb
    have hw : ∀ e ∈ xs ++ ys, WellFormed e.1 := List.forall_mem_append.mpr ⟨hkx, hky⟩
    have hd : ∀ e ∈ xs ++ ys, Digestible e.1 :=
      List.forall_mem_append.mpr ⟨apartx.digestible, aparty.digestible⟩
    refine ⟨fun hda _ => absurd hda not_digestible_mapping, ?_⟩
    apply deepEquals_mapping_eq_equal _ _ _ apartx aparty
    · intro e he f hf
      apply isFor_iff_of_itemEquals (hw e he) (hw f hf) (hd e he) (hd f hf)
      exact ((ih e he f hf).1 (hw e he) (hw f hf)).1 (hd e he) (hd f hf)
    · intro e he f hf
      have key := (compare_ne_signals f.1 e.1 (hky f hf) (hkx e he)).1
      exact isFor_ne_signals (key (aparty.digestible f hf) (apartx.digestible e he))
    · intro e he f hf
      have item := (ih e (List.mem_append_left _ he) f (List.mem_append_right _ hf)).2
      exact (item (hix e he) (hiy f hf)).2
  | set j k xs ys ih =>
    obtain ⟨apartx, hx⟩ := wellFormed_set.mp ha
    obtain ⟨aparty, hy⟩ := wellFormed_set.mp hb
    have hw : ∀ v ∈ xs ++ ys, WellFormed v := List.forall_mem_append.mpr ⟨hx, hy⟩
    have hd : ∀ v ∈ xs ++ ys, Digestible v :=
      List.forall_mem_append.mpr ⟨apartx.digestible, aparty.digestible⟩
    have hp : plainEquals (.set j xs) (.set k ys) = .equal ↔
        arranged (plainForms xs) = arranged (plainForms ys) := by
      apply plainEquals_set_eq_equal _ _ apartx.apart
      · intro v hv w hw'
        apply isFor_iff_of_itemEquals (hw v hv) (hw w hw') (hd v hv) (hd w hw')
        exact (ih v hv w hw' (hw v hv) (hw w hw')).1 (hd v hv) (hd w hw')
      · intro x hx' y hy'
        have element := (compare_ne_signals y x (hy y hy') (hx x hx')).1
        exact isFor_ne_signals (element (aparty.digestible y hy') (apartx.digestible x hx'))
    rw [itemEquals_set, deepEquals_set, plainForm, plainForm, form, form, Form.set.injEq]
    exact ⟨fun _ _ => hp, hp⟩
  | record t u i j ih =>
    have hd := (ih (wellFormed_record.mp ha).1 (wellFormed_record.mp hb).1).2
    rw [itemEquals_record, deepEquals_record, plainForm, plainForm, form, form, Form.record.injEq]
    split
    · rename_i htu
      simp [hd, htu]
    · rename_i htu
      simp [htu]
  | apart a b h =>
    have hp : a.plainForm ≠ b.plainForm := fun heq => h (aligned_of_plainForm_eq heq)
    have hf : a.form ≠ b.form := fun heq => h (aligned_of_form_eq heq)
    simp [itemEquals_of_not_aligned h, deepEquals_of_not_aligned h, hp, hf]

end Forms

section Equality
variable {a b : Value}

theorem WellFormed.deepEquals_iff (ha : WellFormed a) (hb : WellFormed b) :
    deepEquals a b = .equal ↔ a.form = b.form :=
  (equal_iff_forms a b ha hb).2

/-- Deep equality is an equivalence, whatever the values are made of: the values that have one
form are equal to each other, in either order, and to no others. -/
theorem deepEquals_equivalence :
    Equivalence (fun a b : {v : Value // WellFormed v} => deepEquals a b = .equal) ∧
      ∀ a b : {v : Value // WellFormed v}, deepEquals a b = .equal ↔ a.1.form = b.1.form := by
  have classes (a b : {v : Value // WellFormed v}) : deepEquals a b = .equal ↔ a.1.form = b.1.form :=
    a.2.deepEquals_iff b.2
  refine ⟨⟨?_, ?_, ?_⟩, classes⟩
  · intro a
    exact (classes a a).mpr rfl
  · intro a b hab
    exact (classes b a).mpr ((classes a b).mp hab).symm
  · intro a b c hab hbc
    exact (classes a c).mpr (((classes a b).mp hab).trans ((classes b c).mp hbc))

/-- Mappings of three kinds, with a record for a key. The signaling number they share makes
none of them differ from itself or from the others. -/
theorem deepEquals_equivalence_mappings :
    let odd := Value.leaf (.decimal (.undefined true false 0 7))
    let key := Value.record "t" (.seq (.tuple none) [.leaf (.int 1)])
    let a := Value.mapping (.dict 1) [(key, .seq (.list 2) [odd, .leaf (.int 1)]), (.leaf .null, odd)]
    let b := Value.mapping (.view none)
      [(.leaf .null, odd), (key, .seq (.tuple none) [odd, .leaf (.float (.finite false 1023 0))])]
    let c := Value.mapping (.ordered 3)
      [(key, .seq (.list 4) [odd, .leaf (.decimal (.finite false 10 (-1)))]), (.leaf .null, odd)]
    deepEquals a a = .equal ∧ deepEquals b a = .equal ∧ deepEquals a c = .equal := by
  intro odd key a b c
  have hkey : WellFormed key := .record (.seq (by simp)) (.seq (by simp [Leaf.copyFault])) rfl
  have row : ∀ (seq : SeqKind) (one : Leaf), WellFormed (.seq seq [odd, .leaf one]) := by
    simp [wellFormed_seq, odd]
  have first : ∀ kind seq one,
      WellFormed (.mapping kind [(key, .seq seq [odd, .leaf one]), (.leaf .null, odd)]) := by
    intro kind seq one
    refine .mapping ⟨by simp [Digestible]; decide, ?_⟩ (by simp [hkey]) (by simp [row, odd])
    simp only [List.pairwise_pair]
    decide +kernel
  have last : ∀ kind seq one,
      WellFormed (.mapping kind [(.leaf .null, odd), (key, .seq seq [odd, .leaf one])]) := by
    intro kind seq one
    refine .mapping ⟨by simp [Digestible]; decide, ?_⟩ (by simp [hkey]) (by simp [row, odd])
    simp only [List.pairwise_pair]
    decide +kernel
  let a' : {v : Value // WellFormed v} := ⟨a, first _ _ _⟩
  let b' : {v : Value // WellFormed v} := ⟨b, last _ _ _⟩
  let c' : {v : Value // WellFormed v} := ⟨c, first _ _ _⟩
  have hab : deepEquals a b = .equal := by decide +kernel
  have hbc : deepEquals b c = .equal := by decide +kernel
  exact ⟨deepEquals_equivalence.1.refl a', deepEquals_equivalence.1.symm (x := a') (y := b') hab,
    deepEquals_equivalence.1.trans (x := a') (y := b') (z := c') hab hbc⟩

theorem WellFormed.isFor_iff (ha : WellFormed a) (hb : WellFormed b) (hda : Digestible a)
    (hdb : Digestible b) : isFor a b = .equal ↔ a.plainForm = b.plainForm :=
  isFor_iff_of_itemEquals ha hb hda hdb ((equal_iff_forms a b ha hb).1 hda hdb)

theorem WellFormed.isFor_ne_signals (ha : WellFormed a) (hb : WellFormed b) (hda : Digestible a)
    (hdb : Digestible b) : isFor a b ≠ .signals :=
  Value.isFor_ne_signals ((compare_ne_signals a b ha hb).1 hda hdb)

theorem WellFormed.isAmong_iff {vs : List Value} (ha : WellFormed a) (hda : Digestible a)
    (hw : ∀ v ∈ vs, WellFormed v) (hd : ∀ v ∈ vs, Digestible v) :
    isAmong a vs = .equal ↔ a.plainForm ∈ vs.map plainForm := by
  rw [isAmong_eq_equal fun v hv => (hw v hv).isFor_ne_signals ha (hd v hv) hda, List.mem_map]
  exact exists_congr fun v => and_congr_right fun hv => (hw v hv).isFor_iff ha (hd v hv) hda

theorem elementsApart_iff {vs : List Value} (hw : ∀ v ∈ vs, WellFormed v) :
    ElementsApart vs ↔ (∀ v ∈ vs, Digestible v) ∧ (vs.map plainForm).Nodup := by
  constructor
  · intro h
    refine ⟨h.digestible, (pairwise_ne_iff_nodup fun x hx y hy => ?_).mp h.apart⟩
    exact (hw x hx).isFor_iff (hw y hy) (h.digestible x hx) (h.digestible y hy)
  · rintro ⟨hd, hnodup⟩
    refine ⟨hd, (pairwise_ne_iff_nodup fun x hx y hy => ?_).mpr hnodup⟩
    exact (hw x hx).isFor_iff (hw y hy) (hd x hx) (hd y hy)

theorem keysApart_iff {entries : List (Value × Value)} (hw : ∀ e ∈ entries, WellFormed e.1) :
    KeysApart entries ↔ (∀ e ∈ entries, Digestible e.1) ∧
      (entries.map fun e => e.1.plainForm).Nodup := by
  have keys : KeysApart entries ↔ ElementsApart (entries.map (·.1)) := by
    constructor
    · intro h
      exact ⟨by simpa using h.digestible, List.pairwise_map.mpr h.apart⟩
    · intro h
      exact ⟨by simpa using h.digestible, List.pairwise_map.mp h.apart⟩
  rw [keys, elementsApart_iff (by simpa using hw), List.map_map]
  simp [Function.comp_def]

theorem keysApart_texts {entries : List (String × Value)} :
    KeysApart (entries.map fun e => (.leaf (.text e.1), e.2)) ↔ (entries.map (·.1)).Nodup := by
  have hdigest : ∀ e ∈ entries.map fun e => (Value.leaf (.text e.1), e.2), Digestible e.1 :=
    List.forall_mem_map.mpr fun e _ => digestible_leaf.mpr rfl
  rw [keysApart_iff (List.forall_mem_map.mpr fun e _ => .leaf), and_iff_right hdigest, List.map_map,
    List.Nodup, List.Nodup, List.pairwise_map, List.pairwise_map]
  simp [plainForm, Leaf.form, Leaf.isUndefined, Leaf.undefinedIdent?, Leaf.key]

end Equality

end RecordLiteral.Value
