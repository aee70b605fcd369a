import RecordLiteral.Proofs.Form

/-! # Comparisons shape by shape

When the verdict of a comparison is that two values are equal, and when it is an answer
at all, given what is known of the comparisons of their parts.
-/
namespace RecordLiteral

namespace Verdict

variable {first second : Verdict}

theorem andThen_eq_equal : first.andThen second = .equal ↔ first = .equal ∧ second = .equal := by
  cases first <;> simp [andThen]

theorem andThen_ne_signals (hf : first ≠ .signals) (hs : second ≠ .signals) :
    first.andThen second ≠ .signals := by
  cases first <;> simp_all [andThen]

theorem orElse_eq_equal (hf : first ≠ .signals) :
    first.orElse second = .equal ↔ first = .equal ∨ second = .equal := by
  cases first <;> simp_all [orElse]

theorem orElse_ne_signals (hf : first ≠ .signals) (hs : second ≠ .signals) :
    first.orElse second ≠ .signals := by
  cases first <;> simp_all [orElse]

theorem ofBool_eq_equal {b : Bool} : ofBool b = .equal ↔ b = true := by
  cases b <;> simp [ofBool]

theorem ofBool_ne_signals (b : Bool) : ofBool b ≠ .signals := by
  cases b <;> simp [ofBool]

theorem eq_of_equal_iff (hf : first ≠ .signals) (hs : second ≠ .signals)
    (h : first = .equal ↔ second = .equal) : first = second := by
  cases first <;> cases second <;> simp_all

end Verdict

theorem Leaf.isSignaling_of_digestFault {l : Leaf} (h : l.digestFault = none) :
    l.isSignaling = false := by
  unfold digestFault at h
  split at h
  · cases h
  · cases h
  · simpa using h

theorem Leaf.plainEquals_ne_signals {a b : Leaf} (ha : a.digestFault = none)
    (hb : b.digestFault = none) : a.plainEquals b ≠ .signals := by
  simp only [plainEquals, isSignaling_of_digestFault ha, isSignaling_of_digestFault hb,
    Bool.false_and, Bool.and_false, Bool.or_self, Bool.false_eq_true, if_false]
  split
  · simp
  · exact Verdict.ofBool_ne_signals _

namespace Value

inductive Kind
  | leaf
  | seq
  | mapping
  | set
  | record
  deriving DecidableEq

def kind : Value → Kind
  | .leaf _ => .leaf
  | .seq .. => .seq
  | .mapping .. => .mapping
  | .set .. => .set
  | .record .. => .record

end Value

def Form.kind : Form → Value.Kind
  | .key _ | .truth _ | .undefined _ => .leaf
  | .seq _ => .seq
  | .mapping _ => .mapping
  | .set _ => .set
  | .record .. => .record

theorem Leaf.form_kind (l : Leaf) : l.form.kind = .leaf := by
  unfold form
  split <;> rfl

namespace Value

inductive Aligned : Value → Value → Prop
  | leaf (a b : Leaf) : Aligned (.leaf a) (.leaf b)
  | seq (j k : SeqKind) (xs ys : List Value) : Aligned (.seq j xs) (.seq k ys)
  | mapping (j k : MapKind) (xs ys : List (Value × Value)) : Aligned (.mapping j xs) (.mapping k ys)
  | set (j k : SetKind) (xs ys : List Value) : Aligned (.set j xs) (.set k ys)
  | record (t u : String) (i j : Value) : Aligned (.record t i) (.record u j)

section Aligned
variable {a b : Value}

theorem aligned_of_kind_eq (h : a.kind = b.kind) : Aligned a b := by
  cases a <;> cases b <;> first | constructor | cases h

theorem Aligned.kind_eq (h : Aligned a b) : a.kind = b.kind := by
  cases h <;> rfl

theorem Aligned.refl (a : Value) : Aligned a a := aligned_of_kind_eq rfl

theorem append_lt_max {α : Type} {size : α → Nat} {xs ys : List α} {m n : Nat}
    (hx : ∀ x ∈ xs, size x < m) (hy : ∀ y ∈ ys, size y < n) :
    ∀ z ∈ xs ++ ys, size z < max m n := by
  intro z hz
  rcases List.mem_append.mp hz with hz | hz
  · have := hx z hz
    omega
  · have := hy z hz
    omega

/-- Induction on two values at once. Parts of both count together, since the keys of one
mapping and the elements of one set are compared with each other too. -/
@[elab_as_elim]
theorem alignedInduction {motive : Value → Value → Prop} (a b : Value)
    (leaf : ∀ a b, motive (.leaf a) (.leaf b))
    (seq : ∀ j k xs ys, (∀ x ∈ xs ++ ys, ∀ y ∈ xs ++ ys, motive x y) →
      motive (.seq j xs) (.seq k ys))
    (mapping : ∀ j k xs ys,
      (∀ e ∈ xs ++ ys, ∀ f ∈ xs ++ ys, motive e.1 f.1 ∧ motive e.2 f.2) →
      motive (.mapping j xs) (.mapping k ys))
    (set : ∀ j k xs ys, (∀ x ∈ xs ++ ys, ∀ y ∈ xs ++ ys, motive x y) →
      motive (.set j xs) (.set k ys))
    (record : ∀ t u i j, motive i j → motive (.record t i) (.record u j))
    (apart : ∀ a b, ¬ Aligned a b → motive a b) : motive a b := by
  induction h : max (sizeOf a) (sizeOf b) using Nat.strongRecOn generalizing a b with
  | _ n ih =>
    subst h
    have smaller : ∀ x y, sizeOf x < max (sizeOf a) (sizeOf b) →
        sizeOf y < max (sizeOf a) (sizeOf b) → motive x y :=
      fun x y hx hy => ih _ (Nat.max_lt.mpr ⟨hx, hy⟩) x y rfl
    by_cases h : Aligned a b
    · cases h with
      | leaf a b => exact leaf a b
      | seq j k xs ys =>
        have hlt : ∀ v ∈ xs ++ ys,
            sizeOf v < max (sizeOf (Value.seq j xs)) (sizeOf (Value.seq k ys)) :=
          append_lt_max (fun _ => sizeOf_lt_seq j) (fun _ => sizeOf_lt_seq k)
        exact seq j k xs ys fun x hx y hy => smaller x y (hlt x hx) (hlt y hy)
      | mapping j k xs ys =>
        have hk : ∀ e ∈ xs ++ ys,
            sizeOf e.1 < max (sizeOf (Value.mapping j xs)) (sizeOf (Value.mapping k ys)) :=
          append_lt_max (fun _ he => (sizeOf_entry_lt j he).1) (fun _ hf => (sizeOf_entry_lt k hf).1)
        have hi : ∀ e ∈ xs ++ ys,
            sizeOf e.2 < max (sizeOf (Value.mapping j xs)) (sizeOf (Value.mapping k ys)) :=
          append_lt_max (fun _ he => (sizeOf_entry_lt j he).2) (fun _ hf => (sizeOf_entry_lt k hf).2)
        refine mapping j k xs ys fun e he f hf => ⟨?_, ?_⟩
        · exact smaller e.1 f.1 (hk e he) (hk f hf)
        · exact smaller e.2 f.2 (hi e he) (hi f hf)
      | set j k xs ys =>
        have hlt : ∀ v ∈ xs ++ ys,
            sizeOf v < max (sizeOf (Value.set j xs)) (sizeOf (Value.set k ys)) :=
          append_lt_max (fun _ => sizeOf_lt_set j) (fun _ => sizeOf_lt_set k)
        exact set j k xs ys fun x hx y hy => smaller x y (hlt x hx) (hlt y hy)
      | record t u i j =>
        have hi := sizeOf_id_lt t i
        have hj := sizeOf_id_lt u j
        exact record t u i j (smaller i j (by omega) (by omega))
    · exact apart a b h

theorem plainForm_kind (v : Value) : v.plainForm.kind = v.kind := by
  cases v with
  | leaf l => exact l.form_kind
  | _ => rfl

theorem form_kind (v : Value) : v.form.kind = v.kind := by
  cases v with
  | leaf l =>
    cases l with
    | bool b => rfl
    | _ => exact Leaf.form_kind _
  | _ => rfl

theorem aligned_of_plainForm_eq (h : a.plainForm = b.plainForm) : Aligned a b :=
  aligned_of_kind_eq (by rw [← plainForm_kind, h, plainForm_kind])

theorem aligned_of_form_eq (h : a.form = b.form) : Aligned a b :=
  aligned_of_kind_eq (by rw [← form_kind, h, form_kind])

theorem same_of_not_aligned (h : ¬ Aligned a b) : a.same b = false := by
  rw [← Bool.not_eq_true]
  intro hs
  exact h (eq_of_same hs ▸ Aligned.refl a)

theorem plainEquals_of_not_aligned (h : ¬ Aligned a b) : plainEquals a b = .unequal := by
  cases a <;> cases b <;> first | exact absurd (by constructor) h | simp [plainEquals]

theorem itemEquals_of_not_aligned (h : ¬ Aligned a b) : itemEquals a b = .unequal := by
  simp [itemEquals, same_of_not_aligned h, plainEquals_of_not_aligned h]

theorem deepEquals_of_not_aligned (h : ¬ Aligned a b) : deepEquals a b = .unequal := by
  have hp := plainEquals_of_not_aligned h
  have hs := same_of_not_aligned h
  unfold deepEquals
  simp only [hs, Bool.false_eq_true, if_false]
  split
  · exact absurd (.leaf _ _) h
  · rfl
  · rfl
  · exact absurd (.mapping ..) h
  · exact absurd (.seq ..) h
  · exact hp

end Aligned

section Lists
variable {xs ys : List Value}

theorem plainItems_eq_equal :
    plainItems xs ys = .equal ↔ List.Forall₂ (fun x y => itemEquals x y = .equal) xs ys := by
  induction xs generalizing ys with
  | nil => cases ys <;> simp [plainItems]
  | cons x xs ih =>
    cases ys with
    | nil => simp [plainItems]
    | cons y ys => simp [plainItems, Verdict.andThen_eq_equal, ih]

theorem plainItems_ne_signals (h : ∀ x ∈ xs, ∀ y ∈ ys, itemEquals x y ≠ .signals) :
    plainItems xs ys ≠ .signals := by
  induction xs generalizing ys with
  | nil => cases ys <;> simp [plainItems]
  | cons x xs ih =>
    cases ys with
    | nil => simp [plainItems]
    | cons y ys =>
      rw [plainItems]
      refine Verdict.andThen_ne_signals (h x List.mem_cons_self y List.mem_cons_self) ?_
      exact ih fun x hx y hy => h x (List.mem_cons_of_mem _ hx) y (List.mem_cons_of_mem _ hy)

theorem deepItems_eq_equal (hlen : xs.length = ys.length) :
    deepItems xs ys = .equal ↔ List.Forall₂ (fun x y => deepEquals x y = .equal) xs ys := by
  induction xs generalizing ys with
  | nil => cases ys <;> simp_all [deepItems]
  | cons x xs ih =>
    cases ys with
    | nil => simp at hlen
    | cons y ys =>
      simp only [List.length_cons, Nat.add_right_cancel_iff] at hlen
      simp [deepItems, Verdict.andThen_eq_equal, ih hlen]

theorem deepItems_ne_signals (h : ∀ x ∈ xs, ∀ y ∈ ys, deepEquals x y ≠ .signals) :
    deepItems xs ys ≠ .signals := by
  induction xs generalizing ys with
  | nil => cases ys <;> simp [deepItems]
  | cons x xs ih =>
    cases ys with
    | nil => simp [deepItems]
    | cons y ys =>
      rw [deepItems]
      refine Verdict.andThen_ne_signals (h x List.mem_cons_self y List.mem_cons_self) ?_
      exact ih fun x hx y hy => h x (List.mem_cons_of_mem _ hx) y (List.mem_cons_of_mem _ hy)

theorem isAmong_eq_equal {v : Value} (h : ∀ e ∈ ys, isFor e v ≠ .signals) :
    isAmong v ys = .equal ↔ ∃ e ∈ ys, isFor e v = .equal := by
  induction ys with
  | nil => simp [isAmong]
  | cons e rest ih =>
    rw [isAmong, Verdict.orElse_eq_equal (h e List.mem_cons_self),
      ih fun e he => h e (List.mem_cons_of_mem _ he)]
    simp

theorem isAmong_ne_signals {v : Value} (h : ∀ e ∈ ys, isFor e v ≠ .signals) :
    isAmong v ys ≠ .signals := by
  induction ys with
  | nil => simp [isAmong]
  | cons e rest ih =>
    rw [isAmong]
    exact Verdict.orElse_ne_signals (h e List.mem_cons_self)
      (ih fun e he => h e (List.mem_cons_of_mem _ he))

theorem allAmong_eq_equal : allAmong xs ys = .equal ↔ ∀ x ∈ xs, isAmong x ys = .equal := by
  induction xs with
  | nil => simp [allAmong]
  | cons x xs ih => simp [allAmong, Verdict.andThen_eq_equal, ih]

theorem allAmong_ne_signals (h : ∀ x ∈ xs, ∀ e ∈ ys, isFor e x ≠ .signals) :
    allAmong xs ys ≠ .signals := by
  induction xs with
  | nil => simp [allAmong]
  | cons x xs ih =>
    rw [allAmong]
    exact Verdict.andThen_ne_signals (isAmong_ne_signals (h x List.mem_cons_self))
      (ih fun x hx => h x (List.mem_cons_of_mem _ hx))

end Lists

section Entries
variable {xs ys : List (Value × Value)}

theorem deepEntries_eq_equal :
    deepEntries xs ys = .equal ↔ ∀ e ∈ xs, deepAt e.1 e.2 ys = .equal := by
  induction xs with
  | nil => simp [deepEntries]
  | cons e xs ih => rw [deepEntries, Verdict.andThen_eq_equal, ih, List.forall_mem_cons]

theorem deepEntries_ne_signals (h : ∀ e ∈ xs, deepAt e.1 e.2 ys ≠ .signals) :
    deepEntries xs ys ≠ .signals := by
  induction xs with
  | nil => simp [deepEntries]
  | cons e xs ih =>
    rw [deepEntries]
    exact Verdict.andThen_ne_signals (h e List.mem_cons_self)
      (ih fun e he => h e (List.mem_cons_of_mem _ he))

theorem deepAt_ne_signals {key item : Value} (hk : ∀ e ∈ ys, isFor e.1 key ≠ .signals)
    (hi : ∀ e ∈ ys, deepEquals item e.2 ≠ .signals) : deepAt key item ys ≠ .signals := by
  induction ys with
  | nil => simp [deepAt]
  | cons e rest ih =>
    rw [deepAt]
    split
    · exact hi e List.mem_cons_self
    · exact ih (fun e he => hk e (List.mem_cons_of_mem _ he)) fun e he => hi e (List.mem_cons_of_mem _ he)
    · exact absurd ‹_› (hk e List.mem_cons_self)

/-- With keys told apart, the entry under a key is the only one for it. -/
theorem deepAt_eq_equal {key item : Value} (hk : ∀ e ∈ ys, isFor e.1 key ≠ .signals)
    (apart : ys.Pairwise fun e f => ¬ (isFor e.1 key = .equal ∧ isFor f.1 key = .equal)) :
    deepAt key item ys = .equal ↔ ∃ e ∈ ys, isFor e.1 key = .equal ∧ deepEquals item e.2 = .equal := by
  induction ys with
  | nil => simp [deepAt]
  | cons e rest ih =>
    obtain ⟨ha, apart⟩ := List.pairwise_cons.mp apart
    have ih := ih (fun e he => hk e (List.mem_cons_of_mem _ he)) apart
    rw [deepAt]
    split
    · rename_i he
      constructor
      · intro h
        exact ⟨e, List.mem_cons_self, he, h⟩
      · rintro ⟨f, hf, hfe, h⟩
        rcases List.mem_cons.mp hf with rfl | hf
        · exact h
        · exact absurd ⟨he, hfe⟩ (ha f hf)
    · rename_i he
      simp [he, ih]
    · exact absurd ‹_› (hk e List.mem_cons_self)

end Entries

theorem isFor_eq_equal {stored sought : Value} :
    isFor stored sought = .equal ↔
      stored.digest = sought.digest ∧ itemEquals stored sought = .equal := by
  rw [isFor]
  split <;> simp [*]

theorem isFor_ne_signals {stored sought : Value} (h : itemEquals stored sought ≠ .signals) :
    isFor stored sought ≠ .signals := by
  rw [isFor]
  split
  · exact h
  · simp

theorem deepEquals_seq (j k : SeqKind) (xs ys : List Value) :
    deepEquals (.seq j xs) (.seq k ys) =
      if (Value.seq j xs).same (.seq k ys) then .equal
      else if xs.length = ys.length then deepItems xs ys else .unequal := by
  rw [deepEquals]

theorem deepEquals_mapping (j k : MapKind) (xs ys : List (Value × Value)) :
    deepEquals (.mapping j xs) (.mapping k ys) =
      if (Value.mapping j xs).same (.mapping k ys) then .equal
      else if xs.length = ys.length then deepEntries xs ys else .unequal := by
  rw [deepEquals]

theorem plainEquals_set (j k : SetKind) (xs ys : List Value) :
    plainEquals (.set j xs) (.set k ys) =
      if xs.length = ys.length then allAmong xs ys else .unequal := by
  rw [plainEquals]

theorem itemEquals_set (j k : SetKind) (xs ys : List Value) :
    itemEquals (.set j xs) (.set k ys) = plainEquals (.set j xs) (.set k ys) := by
  simp [itemEquals, same, ident?]

theorem deepEquals_set (j k : SetKind) (xs ys : List Value) :
    deepEquals (.set j xs) (.set k ys) = plainEquals (.set j xs) (.set k ys) := by
  simp [deepEquals, same, ident?]

theorem plainEquals_record (t u : String) (i j : Value) :
    plainEquals (.record t i) (.record u j) = if t = u then deepEquals i j else .unequal := by
  rw [plainEquals]

theorem itemEquals_record (t u : String) (i j : Value) :
    itemEquals (.record t i) (.record u j) = if t = u then deepEquals i j else .unequal := by
  simp [itemEquals, same, ident?, plainEquals_record]

theorem deepEquals_record (t u : String) (i j : Value) :
    deepEquals (.record t i) (.record u j) = if t = u then deepEquals i j else .unequal := by
  simp [deepEquals, same, ident?, plainEquals_record]

theorem itemEquals_leaf (a b : Leaf) :
    itemEquals (.leaf a) (.leaf b) =
      if (Value.leaf a).same (.leaf b) then .equal else a.plainEquals b := by
  rw [itemEquals, plainEquals]

theorem Leaf.truth_ne_form (b : Bool) (l : Leaf) : Form.truth b ≠ l.form := by
  unfold Leaf.form
  split <;> simp

theorem form_leaf (l : Leaf) :
    (∃ b, l = .bool b) ∨ (∀ b, l ≠ .bool b) ∧ (Value.leaf l).form = l.form := by
  cases l with
  | bool b => exact Or.inl ⟨b, rfl⟩
  | _ => exact Or.inr ⟨by simp, rfl⟩

theorem deepEquals_bool (x y : Bool) :
    deepEquals (.leaf (.bool x)) (.leaf (.bool y)) = .ofBool (x == y) := by
  simp [deepEquals, same, ident?, Leaf.ident?, Leaf.undefinedIdent?]

theorem deepEquals_bool_left {x : Bool} {b : Leaf} (h : ∀ y, b ≠ .bool y) :
    deepEquals (.leaf (.bool x)) (.leaf b) = .unequal := by
  unfold deepEquals
  rw [if_neg (by simp [same, ident?, Leaf.ident?, Leaf.undefinedIdent?])]
  split <;> simp_all

theorem deepEquals_bool_right {a : Leaf} {y : Bool} (h : ∀ x, a ≠ .bool x) :
    deepEquals (.leaf a) (.leaf (.bool y)) = .unequal := by
  have hs : (Value.leaf a).same (.leaf (.bool y)) = false := by
    rw [← Bool.not_eq_true]
    intro hs
    exact h y (Value.leaf.inj (eq_of_same hs))
  unfold deepEquals
  rw [hs]
  simp only [Bool.false_eq_true, if_false]
  split <;> simp_all

theorem deepEquals_leaf {a b : Leaf} (ha : ∀ x, a ≠ .bool x) (hb : ∀ y, b ≠ .bool y) :
    deepEquals (.leaf a) (.leaf b) = itemEquals (.leaf a) (.leaf b) := by
  unfold deepEquals itemEquals
  split
  · rfl
  · split <;> simp_all

theorem itemEquals_leaf_eq_equal {a b : Leaf} :
    itemEquals (.leaf a) (.leaf b) = .equal ↔ a.form = b.form := by
  rw [itemEquals_leaf, Leaf.form_eq_iff]
  split <;> simp [*]

theorem deepEquals_leaf_eq_equal {a b : Leaf} :
    deepEquals (.leaf a) (.leaf b) = .equal ↔ (Value.leaf a).form = (Value.leaf b).form := by
  rcases form_leaf a with ⟨x, rfl⟩ | ⟨ha, hfa⟩
  · rcases form_leaf b with ⟨y, rfl⟩ | ⟨hb, hfb⟩
    · simp [deepEquals_bool, Verdict.ofBool_eq_equal, form]
    · simp [deepEquals_bool_left hb, hfb, form, Leaf.truth_ne_form]
  · rcases form_leaf b with ⟨y, rfl⟩ | ⟨hb, hfb⟩
    · simp [deepEquals_bool_right ha, hfa, form, (Leaf.truth_ne_form y a).symm]
    · rw [deepEquals_leaf ha hb, itemEquals_leaf_eq_equal, hfa, hfb]

theorem itemEquals_leaf_ne_signals {a b : Leaf} (ha : a.digestFault = none)
    (hb : b.digestFault = none) : itemEquals (.leaf a) (.leaf b) ≠ .signals := by
  rw [itemEquals_leaf]
  split
  · simp
  · exact Leaf.plainEquals_ne_signals ha hb

theorem deepEquals_leaf_ne_signals {a b : Leaf} (ha : a.digestFault = none)
    (hb : b.digestFault = none) : deepEquals (.leaf a) (.leaf b) ≠ .signals := by
  rcases form_leaf a with ⟨x, rfl⟩ | ⟨hna, -⟩
  · rcases form_leaf b with ⟨y, rfl⟩ | ⟨hnb, -⟩
    · rw [deepEquals_bool]
      exact Verdict.ofBool_ne_signals _
    · simp [deepEquals_bool_left hnb]
  · rcases form_leaf b with ⟨y, rfl⟩ | ⟨hnb, -⟩
    · simp [deepEquals_bool_right hna]
    · rw [deepEquals_leaf hna hnb]
      exact itemEquals_leaf_ne_signals ha hb

theorem itemEquals_tuple_ne_signals {i i' : Option Ident} {xs ys : List Value}
    (h : ∀ x ∈ xs, ∀ y ∈ ys, itemEquals x y ≠ .signals) :
    itemEquals (.seq (.tuple i) xs) (.seq (.tuple i') ys) ≠ .signals := by
  rw [itemEquals, plainEquals]
  split
  · simp
  · exact plainItems_ne_signals h

theorem deepEquals_seq_ne_signals {j k : SeqKind} {xs ys : List Value}
    (h : ∀ x ∈ xs, ∀ y ∈ ys, deepEquals x y ≠ .signals) :
    deepEquals (.seq j xs) (.seq k ys) ≠ .signals := by
  rw [deepEquals_seq]
  split
  · simp
  · split
    · exact deepItems_ne_signals h
    · simp

theorem deepEquals_mapping_ne_signals {j k : MapKind} {xs ys : List (Value × Value)}
    (hkeys : ∀ e ∈ xs, ∀ f ∈ ys, itemEquals f.1 e.1 ≠ .signals)
    (hitems : ∀ e ∈ xs, ∀ f ∈ ys, deepEquals e.2 f.2 ≠ .signals) :
    deepEquals (.mapping j xs) (.mapping k ys) ≠ .signals := by
  rw [deepEquals_mapping]
  split
  · simp
  · split
    · apply deepEntries_ne_signals
      intro e he
      exact deepAt_ne_signals (fun f hf => isFor_ne_signals (hkeys e he f hf)) (hitems e he)
    · simp

theorem plainEquals_set_ne_signals {j k : SetKind} {xs ys : List Value}
    (h : ∀ x ∈ xs, ∀ y ∈ ys, itemEquals y x ≠ .signals) :
    plainEquals (.set j xs) (.set k ys) ≠ .signals := by
  rw [plainEquals_set]
  split
  · exact allAmong_ne_signals fun x hx y hy => isFor_ne_signals (h x hx y hy)
  · simp

end Value
end RecordLiteral
