import RecordLiteral.Proofs.Agreement

/-! # Booleans and integers

Deep equality tells booleans from integers among the items of sequences and mappings, however
deep. Keys and the elements of sets are looked up by plain equality, for which a boolean is the
integer of its worth. Both are seen by putting an object of its own in place of each truth value:
among the items this changes no comparison, and in keys and sets it takes apart just the values in
which plain equality had confused a boolean with an integer.
-/
namespace RecordLiteral

/-- Two objects to stand for the truth values. -/
structure Tags where
  ofTrue : Foreign
  ofFalse : Foreign
  apart : ofTrue.ident ≠ ofFalse.ident

/-- How far tags are put. Items of sequences and mappings are what deep equality goes through by
itself, whereas keys and elements are looked up. -/
inductive Reach
  | items
  | everywhere

namespace Leaf

/-- The leaves of plain data. None of them is an object that a tag could be. -/
def isPlain : Leaf → Bool
  | .null | .bool _ | .int _ | .text _ => true
  | _ => false

def tagged (t : Tags) : Leaf → Leaf
  | .bool true => .foreign t.ofTrue
  | .bool false => .foreign t.ofFalse
  | l => l

variable {t : Tags} {l m : Leaf}

theorem tagged_eq_self (h : ∀ b, l ≠ .bool b) : l.tagged t = l := by
  cases l with
  | bool b => exact absurd rfl (h b)
  | _ => rfl

theorem form_tagged_bool (t : Tags) (b : Bool) : ((Leaf.bool b).tagged t).form =
    .key (.object (if b then t.ofTrue.ident else t.ofFalse.ident)) := by
  cases b <;> rfl

theorem form_tagged_bool_inj {b c : Bool} :
    ((Leaf.bool b).tagged t).form = ((Leaf.bool c).tagged t).form ↔ b = c := by
  rw [form_tagged_bool, form_tagged_bool]
  cases b <;> cases c <;> simp [t.apart, t.apart.symm]

theorem form_tagged_bool_ne (h : l.isPlain = true) (b : Bool) :
    ((Leaf.bool b).tagged t).form ≠ l.form := by
  rw [form_tagged_bool]
  cases l <;> simp_all [isPlain, form, isUndefined, undefinedIdent?, key]

theorem digestFault_tagged (h : l.digestFault = none) : (l.tagged t).digestFault = none := by
  cases l with
  | bool b => cases b <;> rfl
  | _ => exact h

end Leaf

namespace Value

variable {t : Tags} {r : Reach} {a b v : Value}

/-- Plain data: containers of null, booleans, integers and texts. -/
inductive Plain : Value → Prop
  | leaf {l : Leaf} (h : l.isPlain = true) : Plain (.leaf l)
  | seq {kind : SeqKind} {items : List Value} (h : ∀ v ∈ items, Plain v) : Plain (.seq kind items)
  | mapping {kind : MapKind} {entries : List (Value × Value)} (keys : ∀ e ∈ entries, Plain e.1)
    (items : ∀ e ∈ entries, Plain e.2) : Plain (.mapping kind entries)
  | set {kind : SetKind} {elements : List Value} (h : ∀ v ∈ elements, Plain v) :
    Plain (.set kind elements)

section Plain
variable {items : List Value} {entries : List (Value × Value)}

@[simp] theorem plain_leaf {l : Leaf} : Plain (.leaf l) ↔ l.isPlain = true :=
  ⟨fun | .leaf h => h, .leaf⟩

@[simp] theorem plain_seq {kind : SeqKind} : Plain (.seq kind items) ↔ ∀ v ∈ items, Plain v :=
  ⟨fun | .seq h => h, .seq⟩

@[simp] theorem plain_mapping {kind : MapKind} :
    Plain (.mapping kind entries) ↔ (∀ e ∈ entries, Plain e.1) ∧ ∀ e ∈ entries, Plain e.2 :=
  ⟨fun | .mapping keys items => ⟨keys, items⟩, fun h => .mapping h.1 h.2⟩

@[simp] theorem plain_set {kind : SetKind} : Plain (.set kind items) ↔ ∀ v ∈ items, Plain v :=
  ⟨fun | .set h => h, .set⟩

@[simp] theorem not_plain_record {table : String} {id : Value} : ¬ Plain (.record table id) :=
  nofun

end Plain

mutual

/-- A tag in place of every truth value within reach. -/
def tagged (t : Tags) (r : Reach) : Value → Value
  | .leaf l => .leaf (l.tagged t)
  | .seq kind items => .seq kind (taggedItems t r items)
  | .mapping kind entries => .mapping kind (taggedEntries t r entries)
  | .set kind elements =>
    .set kind (match r with
      | .items => elements
      | .everywhere => taggedItems t .everywhere elements)
  | .record table id => .record table id

def taggedItems (t : Tags) (r : Reach) : List Value → List Value
  | [] => []
  | v :: rest => tagged t r v :: taggedItems t r rest

def taggedEntries (t : Tags) (r : Reach) : List (Value × Value) → List (Value × Value)
  | [] => []
  | (key, item) :: rest =>
    (match r with
      | .items => key
      | .everywhere => tagged t .everywhere key, tagged t r item) :: taggedEntries t r rest

end

/-- What becomes of keys and elements. -/
def taggedWithin (t : Tags) : Reach → Value → Value
  | .items, v => v
  | .everywhere, v => v.tagged t .everywhere

@[simp] theorem taggedItems_eq_map (items : List Value) :
    taggedItems t r items = items.map (tagged t r) := by
  induction items with
  | nil => rfl
  | cons v rest ih => simp [taggedItems, ih]

@[simp] theorem taggedEntries_eq_map (entries : List (Value × Value)) :
    taggedEntries t r entries = entries.map fun e => (e.1.taggedWithin t r, e.2.tagged t r) := by
  induction entries with
  | nil => rfl
  | cons e rest ih => cases r <;> simp [taggedEntries, taggedWithin, ih]

@[simp] theorem taggedWithin_items : taggedWithin t .items = id := rfl

@[simp] theorem taggedWithin_everywhere : taggedWithin t .everywhere = tagged t .everywhere := rfl

theorem tagged_set (kind : SetKind) (elements : List Value) :
    (Value.set kind elements).tagged t r = .set kind (elements.map (taggedWithin t r)) := by
  cases r <;> simp [tagged]

theorem kind_tagged (v : Value) : (v.tagged t r).kind = v.kind := by
  cases v <;> rfl

theorem form_leaf_tagged (l : Leaf) : (Value.leaf (l.tagged t)).form = (l.tagged t).form := by
  rcases form_leaf l with ⟨b, rfl⟩ | ⟨hl, h⟩
  · cases b <;> rfl
  · rw [Leaf.tagged_eq_self hl, h]

/-- Tags keep apart what deep equality keeps apart. -/
theorem leaf_tagged_iff {l m : Leaf} (hl : l.isPlain = true) (hm : m.isPlain = true) :
    (l.tagged t).form = (m.tagged t).form ↔ (Value.leaf l).form = (Value.leaf m).form := by
  rcases form_leaf l with ⟨x, rfl⟩ | ⟨hx, hfx⟩
  · rcases form_leaf m with ⟨y, rfl⟩ | ⟨hy, hfy⟩
    · rw [Leaf.form_tagged_bool_inj, form, form, Form.truth.injEq]
    · rw [Leaf.tagged_eq_self hy, hfy, form]
      exact iff_of_false (Leaf.form_tagged_bool_ne hm x) (Leaf.truth_ne_form x m)
  · rcases form_leaf m with ⟨y, rfl⟩ | ⟨hy, hfy⟩
    · rw [Leaf.tagged_eq_self hx, hfx, form]
      exact iff_of_false (Leaf.form_tagged_bool_ne hl y).symm (Leaf.truth_ne_form y l).symm
    · rw [Leaf.tagged_eq_self hx, Leaf.tagged_eq_self hy, hfx, hfy]

theorem leaf_plainForm_eq_of_form_eq {l m : Leaf} (h : (Value.leaf l).form = (Value.leaf m).form) :
    (Value.leaf l).plainForm = (Value.leaf m).plainForm := by
  rcases form_leaf l with ⟨x, rfl⟩ | ⟨-, hfx⟩
  · rcases form_leaf m with ⟨y, rfl⟩ | ⟨-, hfy⟩
    · rw [Form.truth.inj h]
    · exact absurd (h.trans hfy) (Leaf.truth_ne_form x m)
  · rcases form_leaf m with ⟨y, rfl⟩ | ⟨-, hfy⟩
    · exact absurd (h.symm.trans hfx) (Leaf.truth_ne_form y l)
    · exact hfx.symm.trans (h.trans hfy)

theorem plainForm_eq_of_taggedWithin
    (h : (a.tagged t r).plainForm = (b.tagged t r).plainForm → a.plainForm = b.plainForm) :
    (a.taggedWithin t r).plainForm = (b.taggedWithin t r).plainForm → a.plainForm = b.plainForm := by
  cases r with
  | items => exact id
  | everywhere => exact h

/-- What tags leave alike was alike. -/
theorem forms_eq_of_tagged (t : Tags) (r : Reach) (a b : Value) (ha : Plain a) (hb : Plain b) :
    ((a.tagged t r).form = (b.tagged t r).form → a.form = b.form) ∧
      ((a.tagged t r).plainForm = (b.tagged t r).plainForm → a.plainForm = b.plainForm) := by
  induction a, b using alignedInduction with
  | leaf l m =>
    have hforms := leaf_tagged_iff (t := t) (plain_leaf.mp ha) (plain_leaf.mp hb)
    rw [tagged, tagged, form_leaf_tagged, form_leaf_tagged]
    exact ⟨hforms.mp, fun h => leaf_plainForm_eq_of_form_eq (hforms.mp h)⟩
  | seq j k xs ys ih =>
    have part := fun x hx y hy => ih x (List.mem_append_left _ hx) y (List.mem_append_right _ hy)
      (plain_seq.mp ha x hx) (plain_seq.mp hb y hy)
    simp only [tagged, form, plainForm, taggedItems_eq_map, forms_eq_map, plainForms_eq_map,
      List.map_map, Form.seq.injEq]
    exact ⟨map_eq_map_of_imp fun x hx y hy => (part x hx y hy).1,
      map_eq_map_of_imp fun x hx y hy => (part x hx y hy).2⟩
  | mapping j k xs ys ih =>
    obtain ⟨hkx, hix⟩ := plain_mapping.mp ha
    obtain ⟨hky, hiy⟩ := plain_mapping.mp hb
    have entry : ∀ e ∈ xs, ∀ f ∈ ys,
        ((e.1.taggedWithin t r).plainForm, (e.2.tagged t r).form) =
          ((f.1.taggedWithin t r).plainForm, (f.2.tagged t r).form) →
        (e.1.plainForm, e.2.form) = (f.1.plainForm, f.2.form) := by
      intro e he f hf h
      obtain ⟨hkeys, hitems⟩ := Prod.mk.inj h
      obtain ⟨key, item⟩ := ih e (List.mem_append_left _ he) f (List.mem_append_right _ hf)
      rw [plainForm_eq_of_taggedWithin (key (hkx e he) (hky f hf)).2 hkeys,
        (item (hix e he) (hiy f hf)).1 hitems]
    simp only [tagged, form, plainForm, taggedEntries_eq_map, entryForms_eq_map, List.map_map,
      Form.mapping.injEq, arranged_eq_iff, and_self]
    exact perm_map_of_imp entry
  | set j k xs ys ih =>
    have element : ∀ x ∈ xs, ∀ y ∈ ys,
        (x.taggedWithin t r).plainForm = (y.taggedWithin t r).plainForm → x.plainForm = y.plainForm :=
      fun x hx y hy => plainForm_eq_of_taggedWithin (ih x (List.mem_append_left _ hx) y
        (List.mem_append_right _ hy) (plain_set.mp ha x hx) (plain_set.mp hb y hy)).2
    simp only [tagged_set, form, plainForm, plainForms_eq_map, List.map_map, Form.set.injEq,
      arranged_eq_iff, and_self]
    exact perm_map_of_imp element
  | record => exact absurd ha not_plain_record
  | apart a b h =>
    have aligned {v w : Value} (hv : v.kind = a.kind) (hw : w.kind = b.kind) (hvw : Aligned v w) :
        Aligned a b := aligned_of_kind_eq (by rw [← hv, hvw.kind_eq, hw])
    have ha := kind_tagged (t := t) (r := r) a
    have hb := kind_tagged (t := t) (r := r) b
    exact ⟨fun heq => absurd (aligned ha hb (aligned_of_form_eq heq)) h,
      fun heq => absurd (aligned ha hb (aligned_of_plainForm_eq heq)) h⟩

theorem taggedWithin_of {p : Value → Prop} (hv : p v) (ht : p (v.tagged t r)) :
    p (v.taggedWithin t r) := by
  cases r with
  | items => exact hv
  | everywhere => exact ht

theorem Digestible.tagged (h : Digestible v) : Digestible (v.tagged t r) := by
  induction v using inductionOn with
  | leaf l => exact digestible_leaf.mpr (Leaf.digestFault_tagged (digestible_leaf.mp h))
  | seq kind items ih =>
    obtain ⟨⟨ident, rfl⟩, hd⟩ := h.tuple
    rw [Value.tagged, taggedItems_eq_map, digestible_tuple]
    exact List.forall_mem_map.mpr fun v hv => ih v hv (hd v hv)
  | mapping kind entries ih => exact absurd h not_digestible_mapping
  | set kind elements ih =>
    cases kind with
    | mutable => cases h
    | frozen => exact digestible_frozen
  | record table id ih => exact h

theorem Digestible.taggedWithin (h : Digestible v) : Digestible (v.taggedWithin t r) :=
  taggedWithin_of h h.tagged

/-- Tagging makes no two keys and no two elements alike. -/
theorem WellFormed.tagged (h : WellFormed v) (hp : Plain v) : WellFormed (v.tagged t r) := by
  induction v using inductionOn with
  | leaf l => exact .leaf
  | seq kind items ih =>
    rw [Value.tagged, taggedItems_eq_map, wellFormed_seq]
    exact List.forall_mem_map.mpr fun v hv => ih v hv (wellFormed_seq.mp h v hv) (plain_seq.mp hp v hv)
  | mapping kind entries ih =>
    obtain ⟨apart, hk, hi⟩ := wellFormed_mapping.mp h
    obtain ⟨hpk, hpi⟩ := plain_mapping.mp hp
    obtain ⟨hd, hnodup⟩ := (keysApart_iff hk).mp apart
    have keys : ∀ e ∈ entries, WellFormed (e.1.taggedWithin t r) := fun e he =>
      taggedWithin_of (hk e he) ((ih e he).1 (hk e he) (hpk e he))
    rw [Value.tagged, taggedEntries_eq_map, wellFormed_mapping]
    refine ⟨(keysApart_iff (List.forall_mem_map.mpr keys)).mpr ⟨?_, ?_⟩, List.forall_mem_map.mpr keys, ?_⟩
    · exact List.forall_mem_map.mpr fun e he => (hd e he).taggedWithin
    · rw [List.map_map]
      exact nodup_map_of_imp (fun e he f hf =>
        plainForm_eq_of_taggedWithin (forms_eq_of_tagged t r _ _ (hpk e he) (hpk f hf)).2) hnodup
    · exact List.forall_mem_map.mpr fun e he => (ih e he).2 (hi e he) (hpi e he)
  | set kind elements ih =>
    obtain ⟨apart, hw⟩ := wellFormed_set.mp h
    have hp := plain_set.mp hp
    obtain ⟨hd, hnodup⟩ := (elementsApart_iff hw).mp apart
    have tags : ∀ v ∈ elements, WellFormed (v.taggedWithin t r) := fun v hv =>
      taggedWithin_of (hw v hv) (ih v hv (hw v hv) (hp v hv))
    rw [tagged_set, wellFormed_set]
    refine ⟨(elementsApart_iff (List.forall_mem_map.mpr tags)).mpr ⟨?_, ?_⟩, List.forall_mem_map.mpr tags⟩
    · exact List.forall_mem_map.mpr fun v hv => (hd v hv).taggedWithin
    · rw [List.map_map]
      exact nodup_map_of_imp (fun v hv w hw =>
        plainForm_eq_of_taggedWithin (forms_eq_of_tagged t r _ _ (hp v hv) (hp w hw)).2) hnodup
  | record table id ih => exact absurd hp not_plain_record

/-- Comparing the first two values puts the other two against each other, as keys of two mappings or
as elements of two sets. -/
inductive Compared : Value → Value → Value → Value → Prop
  | item {i j : SeqKind} {xs ys : List Value} {p : Value × Value} {k l : Value} (hp : p ∈ xs.zip ys)
    (h : Compared p.1 p.2 k l) : Compared (.seq i xs) (.seq j ys) k l
  | key {i j : MapKind} {xs ys : List (Value × Value)} {e f : Value × Value} (he : e ∈ xs)
    (hf : f ∈ ys) : Compared (.mapping i xs) (.mapping j ys) e.1 f.1
  | entry {i j : MapKind} {xs ys : List (Value × Value)} {e f : Value × Value} {k l : Value}
    (he : e ∈ xs) (hf : f ∈ ys) (found : itemEquals e.1 f.1 = .equal) (h : Compared e.2 f.2 k l) :
    Compared (.mapping i xs) (.mapping j ys) k l
  | element {i j : SetKind} {xs ys : List Value} {x y : Value} (hx : x ∈ xs) (hy : y ∈ ys) :
    Compared (.set i xs) (.set j ys) x y

/-- Plain equality takes the one for the other, and only because it takes booleans for integers. -/
def Confused (t : Tags) (k l : Value) : Prop :=
  itemEquals k l = .equal ∧ itemEquals (k.tagged t .everywhere) (l.tagged t .everywhere) ≠ .equal

/-- What can be a key or an element of plain data. -/
structure PlainKey (k : Value) : Prop where
  wellFormed : WellFormed k
  digestible : Digestible k
  plain : Plain k

section Keys
variable {k l : Value}

theorem PlainKey.itemEquals_iff (hk : PlainKey k) (hl : PlainKey l) :
    itemEquals k l = .equal ↔ k.plainForm = l.plainForm :=
  (equal_iff_forms k l hk.wellFormed hl.wellFormed).1 hk.digestible hl.digestible

theorem PlainKey.not_confused_iff (hk : PlainKey k) (hl : PlainKey l) :
    ¬ Confused t k l ↔ (k.plainForm = l.plainForm →
      (k.tagged t .everywhere).plainForm = (l.tagged t .everywhere).plainForm) := by
  have htags : itemEquals (k.tagged t .everywhere) (l.tagged t .everywhere) = .equal ↔
      (k.tagged t .everywhere).plainForm = (l.tagged t .everywhere).plainForm :=
    (equal_iff_forms _ _ (hk.wellFormed.tagged hk.plain) (hl.wellFormed.tagged hl.plain)).1
      hk.digestible.tagged hl.digestible.tagged
  rw [Confused, hk.itemEquals_iff hl, Ne, htags, not_and_not_right]

theorem WellFormed.plainKey {kind : MapKind} {entries : List (Value × Value)}
    (h : WellFormed (.mapping kind entries)) (hp : Plain (.mapping kind entries)) :
    ∀ e ∈ entries, PlainKey e.1 := by
  obtain ⟨apart, hkeys, -⟩ := wellFormed_mapping.mp h
  exact fun e he => ⟨hkeys e he, apart.digestible e he, (plain_mapping.mp hp).1 e he⟩

theorem WellFormed.plainElement {kind : SetKind} {elements : List Value}
    (h : WellFormed (.set kind elements)) (hp : Plain (.set kind elements)) :
    ∀ v ∈ elements, PlainKey v := by
  obtain ⟨apart, hw⟩ := wellFormed_set.mp h
  exact fun v hv => ⟨hw v hv, apart.digestible v hv, plain_set.mp hp v hv⟩

end Keys

/-- What is alike stays alike where this holds of the keys and elements that are compared. -/
theorem form_tagged_eq (t : Tags) (r : Reach) (a b : Value) (ha : WellFormed a) (hb : WellFormed b)
    (hpa : Plain a) (hpb : Plain b) (h : a.form = b.form)
    (hc : ∀ k l, Compared a b k l → k.plainForm = l.plainForm →
      (k.taggedWithin t r).plainForm = (l.taggedWithin t r).plainForm) :
    (a.tagged t r).form = (b.tagged t r).form := by
  induction a, b using alignedInduction with
  | leaf l m =>
    rw [tagged, tagged, form_leaf_tagged, form_leaf_tagged]
    exact (leaf_tagged_iff (plain_leaf.mp hpa) (plain_leaf.mp hpb)).mpr h
  | seq i j xs ys ih =>
    simp only [form, forms_eq_map, Form.seq.injEq] at h
    obtain ⟨length, hforms⟩ := map_eq_map_iff_zip.mp h
    simp only [tagged, form, taggedItems_eq_map, forms_eq_map, List.map_map, Form.seq.injEq]
    refine map_eq_map_iff_zip.mpr ⟨length, fun p hp => ?_⟩
    obtain ⟨hx, hy⟩ := List.of_mem_zip hp
    exact ih p.1 (List.mem_append_left _ hx) p.2 (List.mem_append_right _ hy)
      (wellFormed_seq.mp ha p.1 hx) (wellFormed_seq.mp hb p.2 hy) (plain_seq.mp hpa p.1 hx)
      (plain_seq.mp hpb p.2 hy) (hforms p hp) fun k l hkl => hc k l (.item hp hkl)
  | mapping i j xs ys ih =>
    have keyx := ha.plainKey hpa
    have keyy := hb.plainKey hpb
    obtain ⟨-, -, hix⟩ := wellFormed_mapping.mp ha
    obtain ⟨-, -, hiy⟩ := wellFormed_mapping.mp hb
    simp only [form, entryForms_eq_map, Form.mapping.injEq, arranged_eq_iff] at h
    simp only [tagged, form, taggedEntries_eq_map, entryForms_eq_map, List.map_map,
      Form.mapping.injEq, arranged_eq_iff]
    refine perm_map_of_imp (fun e he f hf hef => ?_) h
    obtain ⟨hkeys, hitems⟩ := Prod.mk.inj hef
    have found := ((keyx e he).itemEquals_iff (keyy f hf)).mpr hkeys
    have item := (ih e (List.mem_append_left _ he) f (List.mem_append_right _ hf)).2 (hix e he)
      (hiy f hf) ((plain_mapping.mp hpa).2 e he) ((plain_mapping.mp hpb).2 f hf) hitems
    exact congrArg₂ Prod.mk (hc e.1 f.1 (.key he hf) hkeys)
      (item fun k l hkl => hc k l (.entry he hf found hkl))
  | set i j xs ys ih =>
    simp only [form, plainForms_eq_map, Form.set.injEq, arranged_eq_iff] at h
    simp only [tagged_set, form, plainForms_eq_map, List.map_map, Form.set.injEq, arranged_eq_iff]
    exact perm_map_of_imp (fun x hx y hy => hc x y (.element hx hy)) h
  | record => exact absurd hpa not_plain_record
  | apart a b hn => exact absurd (aligned_of_form_eq h) hn

theorem tagged_entry_eq {i j : MapKind} {xs ys : List (Value × Value)} {e f : Value × Value}
    (hb : WellFormed (.mapping j ys)) (hpa : Plain (.mapping i xs)) (hpb : Plain (.mapping j ys))
    (h : ((Value.mapping i xs).tagged t .everywhere).form =
      ((Value.mapping j ys).tagged t .everywhere).form)
    (he : e ∈ xs) (hf : f ∈ ys) (hkeys : e.1.plainForm = f.1.plainForm) :
    (e.1.tagged t .everywhere).plainForm = (f.1.tagged t .everywhere).plainForm ∧
      (e.2.tagged t .everywhere).form = (f.2.tagged t .everywhere).form := by
  obtain ⟨apart, hky, -⟩ := wellFormed_mapping.mp hb
  simp only [tagged, form, taggedEntries_eq_map, entryForms_eq_map, List.map_map,
    Form.mapping.injEq, arranged_eq_iff, taggedWithin_everywhere] at h
  refine Prod.mk.inj (eq_of_perm_map (f := fun e => e.1.plainForm) h ((keysApart_iff hky).mp apart).2
    (fun e he f hf hef => ?_) he hf hkeys)
  exact (forms_eq_of_tagged t .everywhere e.1 f.1 ((plain_mapping.mp hpa).1 e he)
    ((plain_mapping.mp hpb).1 f hf)).2 (Prod.mk.inj hef).1

/-- Where the tagged values are alike, the keys and elements of them that are compared stay alike
under their tags. -/
theorem plainForm_tagged_eq {k l : Value} (ha : WellFormed a) (hb : WellFormed b) (hpa : Plain a)
    (hpb : Plain b) (h : (a.tagged t .everywhere).form = (b.tagged t .everywhere).form)
    (hc : Compared a b k l) (hkl : k.plainForm = l.plainForm) :
    (k.tagged t .everywhere).plainForm = (l.tagged t .everywhere).plainForm := by
  induction hc with
  | @item i j xs ys p k l hp hc ih =>
    simp only [tagged, form, taggedItems_eq_map, forms_eq_map, List.map_map, Form.seq.injEq] at h
    obtain ⟨hx, hy⟩ := List.of_mem_zip hp
    exact ih (wellFormed_seq.mp ha p.1 hx) (wellFormed_seq.mp hb p.2 hy) (plain_seq.mp hpa p.1 hx)
      (plain_seq.mp hpb p.2 hy) ((map_eq_map_iff_zip.mp h).2 p hp) hkl
  | key he hf => exact (tagged_entry_eq hb hpa hpb h he hf hkl).1
  | @entry i j xs ys e f k l he hf found hc ih =>
    have hkeys := ((ha.plainKey hpa e he).itemEquals_iff (hb.plainKey hpb f hf)).mp found
    exact ih ((wellFormed_mapping.mp ha).2.2 e he) ((wellFormed_mapping.mp hb).2.2 f hf)
      ((plain_mapping.mp hpa).2 e he) ((plain_mapping.mp hpb).2 f hf)
      (tagged_entry_eq hb hpa hpb h he hf hkeys).2 hkl
  | @element i j xs ys x y hx hy =>
    obtain ⟨apart, hw⟩ := wellFormed_set.mp hb
    simp only [tagged_set, form, plainForms_eq_map, List.map_map, Form.set.injEq, arranged_eq_iff,
      taggedWithin_everywhere] at h
    refine eq_of_perm_map (g := plainForm ∘ tagged t .everywhere) h ((elementsApart_iff hw).mp apart).2
      (fun x hx y hy => ?_) hx hy hkl
    exact (forms_eq_of_tagged t .everywhere x y (plain_set.mp hpa x hx) (plain_set.mp hpb y hy)).2

theorem Compared.plainKey {k l : Value} (hc : Compared a b k l) (ha : WellFormed a)
    (hb : WellFormed b) (hpa : Plain a) (hpb : Plain b) : PlainKey k ∧ PlainKey l := by
  induction hc with
  | item hp hc ih =>
    obtain ⟨hx, hy⟩ := List.of_mem_zip hp
    exact ih (wellFormed_seq.mp ha _ hx) (wellFormed_seq.mp hb _ hy) (plain_seq.mp hpa _ hx)
      (plain_seq.mp hpb _ hy)
  | key he hf => exact ⟨ha.plainKey hpa _ he, hb.plainKey hpb _ hf⟩
  | entry he hf found hc ih =>
    exact ih ((wellFormed_mapping.mp ha).2.2 _ he) ((wellFormed_mapping.mp hb).2.2 _ hf)
      ((plain_mapping.mp hpa).2 _ he) ((plain_mapping.mp hpb).2 _ hf)
  | element hx hy => exact ⟨ha.plainElement hpa _ hx, hb.plainElement hpb _ hy⟩

/-- Among the items, deep equality sees a boolean as an object of its own, which no integer equals.
With tags in keys and sets too it finds the same values equal, less those in which keys or elements
are confused with those that they are compared with. -/
theorem deepEquals_tagged (t : Tags) (ha : WellFormed a) (hb : WellFormed b) (hpa : Plain a)
    (hpb : Plain b) :
    (deepEquals (a.tagged t .items) (b.tagged t .items) = .equal ↔ deepEquals a b = .equal) ∧
      (deepEquals (a.tagged t .everywhere) (b.tagged t .everywhere) = .equal ↔
        deepEquals a b = .equal ∧ ∀ k l, Compared a b k l → ¬ Confused t k l) := by
  have equal_iff (r : Reach) : deepEquals (a.tagged t r) (b.tagged t r) = .equal ↔
      (a.tagged t r).form = (b.tagged t r).form :=
    (ha.tagged hpa).deepEquals_iff (hb.tagged hpb)
  have alike (r : Reach) := (forms_eq_of_tagged t r a b hpa hpb).1
  have confused {k l : Value} (hc : Compared a b k l) := by
    obtain ⟨hk, hl⟩ := hc.plainKey ha hb hpa hpb
    exact hk.not_confused_iff (t := t) hl
  rw [equal_iff, equal_iff, ha.deepEquals_iff hb]
  refine ⟨⟨alike .items, ?_⟩, ?_, ?_⟩
  · exact fun h => form_tagged_eq t .items a b ha hb hpa hpb h fun _ _ _ h => h
  · intro h
    exact ⟨alike .everywhere h, fun k l hc =>
      (confused hc).mpr (plainForm_tagged_eq ha hb hpa hpb h hc)⟩
  · rintro ⟨h, hc⟩
    exact form_tagged_eq t .everywhere a b ha hb hpa hpb h fun k l hkl => (confused hkl).mp (hc k l hkl)

/-- A boolean and an integer among the items, and a tuple with a boolean in it for a key. -/
theorem deepEquals_tagged_nested :
    let t : Tags := ⟨⟨0, "object", "", .bare⟩, ⟨1, "object", "", .bare⟩, by decide⟩
    let yes := Value.leaf (.bool true)
    let two := Value.leaf (.int 2)
    let key (ident : Option Ident) := Value.seq (.tuple ident) [yes, .leaf (.text "k")]
    let a := Value.seq (.list 2) [yes, two, .mapping (.dict 3) [(key none, yes), (two, .leaf .null)]]
    let b := Value.seq (.tuple none)
      [yes, two, .mapping (.view none) [(two, .leaf .null), (key (some 4), yes)]]
    deepEquals a b = .equal ∧
      deepEquals (a.tagged t .items) (b.tagged t .items) = .equal ∧
      ∀ k l, Compared a b k l → ¬ Confused t k l := by
  intro t yes two key a b
  have hkey : ∀ ident, WellFormed (key ident) ∧ Digestible (key ident) := fun ident =>
    ⟨wellFormed_seq.mpr (by simp [yes]), digestible_tuple.mpr (by simp [yes]; decide)⟩
  have hfirst : WellFormed (.mapping (.dict 3) [(key none, yes), (two, .leaf .null)]) := by
    refine .mapping ⟨by simp [(hkey none).2, two]; decide, ?_⟩ (by simp [(hkey none).1, two])
      (by simp [yes])
    simp only [List.pairwise_pair]
    decide +kernel
  have hlast : WellFormed (.mapping (.view none) [(two, .leaf .null), (key (some 4), yes)]) := by
    refine .mapping ⟨by simp [(hkey (some 4)).2, two]; decide, ?_⟩ (by simp [(hkey (some 4)).1, two])
      (by simp [yes])
    simp only [List.pairwise_pair]
    decide +kernel
  have ha : WellFormed a := wellFormed_seq.mpr (by simp [hfirst, yes, two])
  have hb : WellFormed b := wellFormed_seq.mpr (by simp [hlast, yes, two])
  have hab : deepEquals a b = .equal := by decide +kernel
  obtain ⟨items, everywhere⟩ := deepEquals_tagged t ha hb (by simp [a, key, yes, two, Leaf.isPlain])
    (by simp [b, key, yes, two, Leaf.isPlain])
  exact ⟨hab, items.mpr hab, (everywhere.mp (by decide +kernel)).2⟩

/-- In a set and for a key, the boolean is the integer. -/
theorem deepEquals_tagged_set_and_key :
    let t : Tags := ⟨⟨0, "object", "", .bare⟩, ⟨1, "object", "", .bare⟩, by decide⟩
    let set (l : Leaf) := Value.set .mutable [.leaf l]
    let mapping (l : Leaf) := Value.mapping (.dict 2) [(.leaf l, .leaf .null)]
    let differ (a b : Value) := WellFormed a ∧ WellFormed b ∧ Plain a ∧ Plain b ∧
      deepEquals a b = .equal ∧ deepEquals (a.tagged t .everywhere) (b.tagged t .everywhere) = .unequal
    differ (set (.bool true)) (set (.int 1)) ∧ differ (mapping (.bool true)) (mapping (.int 1)) := by
  intro t set mapping differ
  have hset : ∀ l : Leaf, l.digestFault = none → WellFormed (set l) := fun l hl =>
    .set ⟨by simpa using hl, List.pairwise_singleton _ _⟩ (by simp)
  have hmapping : ∀ l : Leaf, l.digestFault = none → WellFormed (mapping l) := fun l hl =>
    .mapping ⟨by simpa using hl, List.pairwise_singleton _ _⟩ (by simp) (by simp)
  constructor
  · refine ⟨hset _ rfl, hset _ rfl, by simp [set, Leaf.isPlain], by simp [set, Leaf.isPlain], ?_, ?_⟩
    · decide +kernel
    · decide +kernel
  · refine ⟨hmapping _ rfl, hmapping _ rfl, by simp [mapping, Leaf.isPlain],
      by simp [mapping, Leaf.isPlain], ?_, ?_⟩
    · decide +kernel
    · decide +kernel

end Value
end RecordLiteral
