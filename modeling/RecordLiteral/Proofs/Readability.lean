import RecordLiteral.Proofs.Address
import RecordLiteral.Proofs.Agreement
import RecordLiteral.Proofs.Tokens

/-! # Reading payloads back

Payloads are made of leaves whose literal shows what they are, in sequences and in objects
with text keys, to any depth. The first character of a literal tells its kind, and what is
behind a literal is no digit, so a literal gives back the form of the payload and the rest
of the text. Keys are the exception: one that ends in a backslash runs into what comes
after it, and so two payloads may read alike. Arrays hold no keys, and their literals are
the same exactly for values that are deeply equal.
-/
namespace RecordLiteral

/-- What the first character of a literal tells. -/
inductive Lead
  | null
  | truth
  | number
  | text
  | uuid
  | record
  | array
  | object

def Lead.ofChar : Char → Lead
  | 'N' => .null
  | 't' | 'f' => .truth
  | 's' => .text
  | 'u' => .uuid
  | 'r' => .record
  | '[' => .array
  | '\x7b' => .object
  | _ => .number

theorem Lead.ofChar_digit {c : Char} (h : c = '-' ∨ c.isDigit = true) : ofChar c = .number := by
  unfold ofChar
  split <;> first | rfl | exact absurd h (by decide)

namespace Leaf

/-- What the literal begins with, of the leaves that payloads are made of. -/
def lead? : Leaf → Option Lead
  | .null => some .null
  | .bool _ => some .truth
  | .int _ => some .number
  | .text _ => some .text
  | .uuid _ => some .uuid
  | .rawRecord _ => some .record
  | _ => none

variable {l a b : Leaf} {lead : Lead} {x y : List Char}

theorem literal_lead (h : l.lead? = some lead) :
    ∃ c rest, l.literal = c :: rest ∧ Lead.ofChar c = lead := by
  cases l with
  | bool b => cases b <;> cases h <;> exact ⟨_, _, rfl, rfl⟩
  | int n =>
    cases h
    obtain ⟨c, rest, hn, hc⟩ := Numeral.signed_head n
    exact ⟨c, rest, hn, Lead.ofChar_digit hc⟩
  | null | text s | uuid u | rawRecord s => cases h; exact ⟨_, _, rfl, rfl⟩
  | _ => cases h

theorem quoted_append_inj {mark : Char} {s t : List Char}
    (h : Literal.quoted mark s ++ x = Literal.quoted mark t ++ y) : s = t ∧ x = y :=
  Quoted.write_append_inj (List.cons.inj h).2

theorem literal_append_inj (ha : a.lead? = some lead) (hb : b.lead? = some lead) (hx : NoDigit x)
    (hy : NoDigit y) (h : a.literal ++ x = b.literal ++ y) : a = b ∧ x = y := by
  cases a with
  | null =>
    cases ha
    cases b with
    | null => exact ⟨rfl, List.append_cancel_left h⟩
    | _ => cases hb
  | bool p =>
    cases ha
    cases b with
    | bool q => cases p <;> cases q <;> simp_all [literal]
    | _ => cases hb
  | int m =>
    cases ha
    cases b with
    | int n =>
      obtain ⟨rfl, hxy⟩ := Numeral.signed_append_inj hx hy h
      exact ⟨rfl, hxy⟩
    | _ => cases hb
  | text s =>
    cases ha
    cases b with
    | text t =>
      obtain ⟨hst, hxy⟩ := quoted_append_inj h
      exact ⟨congrArg text (String.toList_inj.mp hst), hxy⟩
    | _ => cases hb
  | uuid u =>
    cases ha
    cases b with
    | uuid v =>
      obtain ⟨huv, hxy⟩ := quoted_append_inj h
      exact ⟨congrArg uuid (Uuid.text_injective huv), hxy⟩
    | _ => cases hb
  | rawRecord s =>
    cases ha
    cases b with
    | rawRecord t =>
      obtain ⟨hst, hxy⟩ := quoted_append_inj h
      exact ⟨congrArg rawRecord (String.toList_inj.mp hst), hxy⟩
    | _ => cases hb
  | _ => cases ha

theorem eq_of_form_eq (ha : a.lead?.isSome = true) (hb : b.lead?.isSome = true)
    (h : (Value.leaf a).form = (Value.leaf b).form) : a = b := by
  cases a with
  | int m =>
    cases b with
    | int n => exact congrArg int (Exact.ofInt_injective (by simpa [Value.form, form,
        isUndefined, undefinedIdent?, key] using h))
    | _ => simp_all [lead?, Value.form, form, isUndefined, undefinedIdent?, key]
  | null | bool p | text s | uuid u | rawRecord s =>
    cases b <;> simp_all [lead?, Value.form, form, isUndefined, undefinedIdent?, key]
  | _ => cases ha

end Leaf

namespace Literal

variable {α β : Type} {f : α → List Char} {g : α → β} {xs ys : List α} {x y : List Char}

/-- Items between two brackets; arrays and objects alike. -/
def enclosed (opening closing : Char) (items : List (List Char)) : List Char :=
  if items.isEmpty then [opening, closing]
  else opening :: ' ' :: (commaSeparated items ++ [' ', closing])

theorem array_eq (items : List (List Char)) : array items = enclosed '[' ']' items := rfl

def entry (e : List Char × List Char) : List Char := Identifier.write e.1 ++ ':' :: ' ' :: e.2

theorem object_eq (entries : List (List Char × List Char)) :
    object entries = enclosed '\x7b' '\x7d' (entries.map entry) := by
  cases entries <;> rfl

/-- The items behind the first one, each with its comma. -/
def following (items : List (List Char)) : List Char := items.flatMap fun q => ',' :: ' ' :: q

theorem commaSeparated_cons (p : List Char) (rest : List (List Char)) :
    commaSeparated (p :: rest) = p ++ following rest := by
  induction rest generalizing p with
  | nil => simp [commaSeparated, following]
  | cons q rest ih =>
    have hq := ih q
    rw [commaSeparated] at *
    rw [List.intercalate_cons_cons, hq]
    simp [following]

theorem enclosed_cons_append (opening closing : Char) (p : List Char) (rest : List (List Char))
    (x : List Char) : enclosed opening closing (p :: rest) ++ x =
      opening :: ' ' :: (p ++ (following rest ++ ' ' :: closing :: x)) := by
  simp [enclosed, commaSeparated_cons]

theorem noDigit_following (rest : List (List Char)) (x : List Char) :
    NoDigit (following rest ++ ' ' :: x) := by
  cases rest with
  | nil => exact noDigit_cons rfl _
  | cons q rest => exact noDigit_cons rfl _

/-- Whether what `f` writes of two items, with no digit behind it, gives back `g` and the rest. -/
def Readable (f : α → List Char) (g : α → β) (p q : α) : Prop :=
  ∀ u v, NoDigit u → NoDigit v → f p ++ u = f q ++ v → g p = g q ∧ u = v

theorem following_append_inj (h : ∀ p ∈ xs, ∀ q ∈ ys, Readable f g p q)
    (heq : following (xs.map f) ++ ' ' :: x = following (ys.map f) ++ ' ' :: y) :
    xs.map g = ys.map g ∧ x = y := by
  induction xs generalizing ys with
  | nil =>
    cases ys with
    | nil => exact ⟨rfl, (List.cons.inj heq).2⟩
    | cons q ys => exact absurd (List.cons.inj heq).1 (by decide)
  | cons p xs ih =>
    cases ys with
    | nil => exact absurd (List.cons.inj heq).1 (by decide)
    | cons q ys =>
      have hitem : f p ++ (following (xs.map f) ++ ' ' :: x) =
          f q ++ (following (ys.map f) ++ ' ' :: y) := by
        simpa [following] using heq
      obtain ⟨hpq, hrest⟩ := h p List.mem_cons_self q List.mem_cons_self _ _
        (noDigit_following _ x) (noDigit_following _ y) hitem
      obtain ⟨hxs, hxy⟩ := ih
        (fun p hp q hq => h p (List.mem_cons_of_mem _ hp) q (List.mem_cons_of_mem _ hq)) hrest
      exact ⟨by rw [List.map_cons, List.map_cons, hpq, hxs], hxy⟩

/-- Brackets give back what the items give back, and what is behind them. -/
theorem enclosed_append_inj {opening closing : Char} (hc : closing ≠ ' ')
    (h : ∀ p ∈ xs, ∀ q ∈ ys, Readable f g p q)
    (heq : enclosed opening closing (xs.map f) ++ x = enclosed opening closing (ys.map f) ++ y) :
    xs.map g = ys.map g ∧ x = y := by
  cases xs with
  | nil =>
    cases ys with
    | nil => exact ⟨rfl, List.append_cancel_left heq⟩
    | cons q ys => exact absurd (List.cons.inj (List.cons.inj heq).2).1 hc
  | cons p xs =>
    cases ys with
    | nil => exact absurd (List.cons.inj (List.cons.inj heq).2).1.symm hc
    | cons q ys =>
      rw [List.map_cons, List.map_cons, enclosed_cons_append, enclosed_cons_append] at heq
      obtain ⟨hpq, hrest⟩ := h p List.mem_cons_self q List.mem_cons_self _ _
        (noDigit_following _ _) (noDigit_following _ _) (List.cons.inj (List.cons.inj heq).2).2
      obtain ⟨hxs, hxy⟩ := following_append_inj
        (fun p hp q hq => h p (List.mem_cons_of_mem _ hp) q (List.mem_cons_of_mem _ hq)) hrest
      exact ⟨by rw [List.map_cons, List.map_cons, hpq, hxs], (List.cons.inj hxy).2⟩

end Literal

namespace Identifier

/-- The first name ends in a backslash, and the second goes on where it ends as an entry does
behind its key. -/
def RunsInto (s t : List Char) : Prop :=
  s.getLast? = some escapeMark ∧ s.dropLast ++ [closeDelimiter, ':', ' '] <+: t

instance (s t : List Char) : Decidable (RunsInto s t) := inferInstanceAs (Decidable (_ ∧ _))

theorem runsInto_of_overruns {s t x y : List Char} (h : Overruns s (':' :: ' ' :: x) t y) :
    RunsInto s t := by
  obtain ⟨u, v, rfl, rfl, hv⟩ := h
  obtain ⟨w, rfl, hw⟩ := cons_eq_mark_append_close (by decide) (by decide) hv
  obtain ⟨z, rfl, -⟩ := cons_eq_mark_append_close (by decide) (by decide) hw
  exact ⟨by simp, z, by simp⟩

theorem write_append_colon_inj {s t x y : List Char} (hst : ¬ RunsInto s t) (hts : ¬ RunsInto t s)
    (h : write s ++ ':' :: ' ' :: x = write t ++ ':' :: ' ' :: y) : s = t ∧ x = y := by
  rcases write_append_separator_eq (by decide) (by decide) h with ⟨hst, hxy⟩ | h | h
  · exact ⟨hst, (List.cons.inj hxy).2⟩
  · exact absurd (runsInto_of_overruns h) hst
  · exact absurd (runsInto_of_overruns h) hts

end Identifier

namespace Value

open Literal Identifier

def lead? : Value → Option Lead
  | .leaf l => l.lead?
  | .seq .. => some .array
  | .mapping .. => some .object
  | _ => none

/-- Leaves in sequences and under text keys. -/
inductive Payload : Value → Prop
  | leaf {l : Leaf} (h : l.lead?.isSome = true) : Payload (.leaf l)
  | seq {kind : SeqKind} {items : List Value} (h : ∀ v ∈ items, Payload v) :
    Payload (.seq kind items)
  | mapping {kind : MapKind} {entries : List (Value × Value)} (apart : KeysApart entries)
    (texts : ∀ e ∈ entries, ∃ s, e.1 = .leaf (.text s)) (items : ∀ e ∈ entries, Payload e.2) :
    Payload (.mapping kind entries)

mutual

/-- The keys of all objects in a payload. -/
def objectKeys : Value → List (List Char)
  | .seq _ items => objectKeysIn items
  | .mapping _ entries => objectKeysInEntries entries
  | _ => []

def objectKeysIn : List Value → List (List Char)
  | [] => []
  | v :: rest => objectKeys v ++ objectKeysIn rest

def objectKeysInEntries : List (Value × Value) → List (List Char)
  | [] => []
  | (key, item) :: rest => display key :: (objectKeys item ++ objectKeysInEntries rest)

end

theorem mem_objectKeysIn {items : List Value} {s : List Char} :
    s ∈ objectKeysIn items ↔ ∃ v ∈ items, s ∈ v.objectKeys := by
  induction items with
  | nil => simp [objectKeysIn]
  | cons v rest ih => simp [objectKeysIn, ih]

theorem mem_objectKeysInEntries {entries : List (Value × Value)} {s : List Char} :
    s ∈ objectKeysInEntries entries ↔ ∃ e ∈ entries, s = e.1.display ∨ s ∈ e.2.objectKeys := by
  induction entries with
  | nil => simp [objectKeysInEntries]
  | cons e rest ih => simp [objectKeysInEntries, ih, or_assoc]

/-- No key of one runs into a key of the other. -/
def Clear (a b : Value) : Prop :=
  ∀ s ∈ a.objectKeys, ∀ t ∈ b.objectKeys, ¬ RunsInto s t ∧ ¬ RunsInto t s

instance (a b : Value) : Decidable (Clear a b) :=
  inferInstanceAs (Decidable (∀ s ∈ a.objectKeys, ∀ t ∈ b.objectKeys, _))

variable {a b v : Value} {x y : List Char}

section Texts
variable {entries : List (Value × Value)}

theorem plainForm_eq_iff_display_eq {j k : Value} (hj : ∃ s, j = .leaf (.text s))
    (hk : ∃ s, k = .leaf (.text s)) :
    j.plainForm = k.plainForm ↔ j.display = k.display := by
  obtain ⟨s, rfl⟩ := hj
  obtain ⟨t, rfl⟩ := hk
  simp [plainForm, Leaf.form, Leaf.isUndefined, Leaf.undefinedIdent?, Leaf.key, display, Leaf.display,
    String.toList_inj]

theorem wellFormed_of_texts (h : ∀ e ∈ entries, ∃ s, e.1 = .leaf (.text s)) :
    ∀ e ∈ entries, WellFormed e.1 := by
  intro e he
  obtain ⟨s, hs⟩ := h e he
  rw [hs]
  exact .leaf

theorem displays_nodup (apart : KeysApart entries)
    (texts : ∀ e ∈ entries, ∃ s, e.1 = .leaf (.text s)) : (entries.map fun e => e.1.display).Nodup := by
  refine nodup_map_of_imp ?_ ((keysApart_iff (wellFormed_of_texts texts)).mp apart).2
  intro e he f hf h
  exact (plainForm_eq_iff_display_eq (texts e he) (texts f hf)).mpr h

end Texts

theorem Payload.wellFormed (h : Payload v) : WellFormed v := by
  induction h with
  | leaf h => exact .leaf
  | seq h ih => exact .seq ih
  | mapping apart texts items ih => exact .mapping apart (wellFormed_of_texts texts) ih

theorem literal_seq (kind : SeqKind) (items : List Value) :
    literal (.seq kind items) = enclosed '[' ']' (items.map literal) := by
  rw [literal, literals_eq_map, array_eq]

theorem literal_mapping (kind : MapKind) (entries : List (Value × Value)) :
    literal (.mapping kind entries) =
      enclosed '\x7b' '\x7d' (entries.map fun e => entry (e.1.display, e.2.literal)) := by
  rw [literal, entryLiterals_eq_map, object_eq, List.map_map]
  rfl

theorem enclosed_lead (opening closing : Char) (items : List (List Char)) :
    ∃ rest, enclosed opening closing items = opening :: rest := by
  unfold enclosed
  split <;> exact ⟨_, rfl⟩

theorem Payload.lead (h : Payload v) :
    ∃ c rest, v.literal = c :: rest ∧ v.lead? = some (Lead.ofChar c) := by
  cases h with
  | @leaf l h =>
    obtain ⟨lead, hl⟩ := Option.isSome_iff_exists.mp h
    obtain ⟨c, rest, hc, rfl⟩ := Leaf.literal_lead hl
    exact ⟨c, rest, by rw [literal, hc], hl⟩
  | seq h =>
    rw [literal_seq]
    obtain ⟨rest, hr⟩ := enclosed_lead '[' ']' _
    exact ⟨'[', rest, hr, rfl⟩
  | mapping apart texts items =>
    rw [literal_mapping]
    obtain ⟨rest, hr⟩ := enclosed_lead '\x7b' '\x7d' _
    exact ⟨'\x7b', rest, hr, rfl⟩

theorem lead?_eq (ha : Payload a) (hb : Payload b) (h : a.literal ++ x = b.literal ++ y) :
    a.lead? = b.lead? := by
  obtain ⟨c, r, hc, hca⟩ := ha.lead
  obtain ⟨d, s, hd, hdb⟩ := hb.lead
  rw [hc, hd, List.cons_append, List.cons_append, List.cons.injEq] at h
  rw [hca, hdb, h.1]

theorem aligned_of_lead?_eq (ha : Payload a) (hb : Payload b) (h : a.lead? = b.lead?) :
    Aligned a b := by
  have brackets : ∀ l : Leaf, l.lead? ≠ some .array ∧ l.lead? ≠ some .object := by
    intro l
    cases l <;> simp [Leaf.lead?]
  cases ha with
  | @leaf k =>
    cases hb with
    | leaf => exact .leaf _ _
    | seq => exact absurd h (brackets k).1
    | mapping => exact absurd h (brackets k).2
  | seq =>
    cases hb with
    | @leaf k => exact absurd h.symm (brackets k).1
    | seq => exact .seq ..
    | mapping => cases h
  | mapping =>
    cases hb with
    | @leaf k => exact absurd h.symm (brackets k).2
    | seq => cases h
    | mapping => exact .mapping ..

theorem Clear.seq {j k : SeqKind} {xs ys : List Value} (h : Clear (.seq j xs) (.seq k ys)) :
    ∀ v ∈ xs, ∀ w ∈ ys, Clear v w :=
  fun v hv w hw s hs t ht =>
    h s (mem_objectKeysIn.mpr ⟨v, hv, hs⟩) t (mem_objectKeysIn.mpr ⟨w, hw, ht⟩)

theorem Clear.mapping {j k : MapKind} {xs ys : List (Value × Value)}
    (h : Clear (.mapping j xs) (.mapping k ys)) : ∀ e ∈ xs, ∀ f ∈ ys,
      (¬ RunsInto e.1.display f.1.display ∧ ¬ RunsInto f.1.display e.1.display) ∧ Clear e.2 f.2 := by
  intro e he f hf
  constructor
  · exact h _ (mem_objectKeysInEntries.mpr ⟨e, he, .inl rfl⟩) _
      (mem_objectKeysInEntries.mpr ⟨f, hf, .inl rfl⟩)
  · intro s hs t ht
    exact h s (mem_objectKeysInEntries.mpr ⟨e, he, .inr hs⟩) t
      (mem_objectKeysInEntries.mpr ⟨f, hf, .inr ht⟩)

theorem readable_entry {e f : Value × Value} (he : ∃ s, e.1 = .leaf (.text s))
    (hf : ∃ s, f.1 = .leaf (.text s))
    (hk : ¬ RunsInto e.1.display f.1.display ∧ ¬ RunsInto f.1.display e.1.display)
    (hi : Readable literal form e.2 f.2) :
    Readable (fun e : Value × Value => entry (e.1.display, e.2.literal))
      (fun e => (e.1.plainForm, e.2.form)) e f := by
  intro u v hu hv h
  obtain ⟨s, hs⟩ := he
  obtain ⟨t, ht⟩ := hf
  rw [hs, ht] at hk
  simp only [entry, hs, ht, List.append_assoc, List.cons_append] at h
  obtain ⟨hst, hrest⟩ := write_append_colon_inj hk.1 hk.2 h
  obtain ⟨hform, huv⟩ := hi u v hu hv hrest
  have hst : s = t := String.toList_inj.mp (by simpa [display, Leaf.display] using hst)
  exact ⟨by simp only [hs, ht, hst, hform], huv⟩

/-- A literal gives back the form of a payload and what is behind it. -/
theorem readable_payload (a b : Value) (ha : Payload a) (hb : Payload b) (hc : Clear a b) :
    Readable literal form a b := by
  induction a, b using alignedInduction with
  | leaf a b =>
    intro u v hu hv h
    have hlead := lead?_eq ha hb h
    cases ha with
    | leaf ha =>
      obtain ⟨lead, ha⟩ := Option.isSome_iff_exists.mp ha
      rw [literal, literal] at h
      obtain ⟨rfl, huv⟩ := Leaf.literal_append_inj ha (hlead.symm.trans ha) hu hv h
      exact ⟨rfl, huv⟩
  | seq j k xs ys ih =>
    intro u v hu hv h
    cases ha with
    | seq ha =>
      cases hb with
      | seq hb =>
        rw [literal_seq, literal_seq] at h
        obtain ⟨hforms, huv⟩ := enclosed_append_inj (by decide) (fun p hp q hq =>
          ih p (List.mem_append_left _ hp) q (List.mem_append_right _ hq) (ha p hp) (hb q hq)
            (hc.seq p hp q hq)) h
        exact ⟨by rw [form, form, forms_eq_map, forms_eq_map, hforms], huv⟩
  | mapping j k xs ys ih =>
    -- Keys give themselves back because none runs into another, items by induction.
    intro u v hu hv h
    cases ha with
    | mapping apartx textsx hx =>
      cases hb with
      | mapping aparty textsy hy =>
        rw [literal_mapping, literal_mapping] at h
        have entries : ∀ e ∈ xs, ∀ f ∈ ys,
            Readable (fun e : Value × Value => entry (e.1.display, e.2.literal))
              (fun e => (e.1.plainForm, e.2.form)) e f := by
          intro e he f hf
          obtain ⟨hkeys, hitems⟩ := hc.mapping e he f hf
          have hitem := (ih e (List.mem_append_left _ he) f (List.mem_append_right _ hf)).2
          exact readable_entry (textsx e he) (textsy f hf) hkeys (hitem (hx e he) (hy f hf) hitems)
        obtain ⟨hforms, huv⟩ := enclosed_append_inj (by decide) entries h
        exact ⟨by rw [form, form, entryForms_eq_map, entryForms_eq_map, hforms], huv⟩
  | set j k xs ys ih => cases ha
  | record t u i j ih => cases ha
  | apart a b hn =>
    intro u v hu hv h
    exact absurd (aligned_of_lead?_eq ha hb (lead?_eq ha hb h)) hn

theorem Payload.form_eq_of_literal_eq (ha : Payload a) (hb : Payload b) (hc : Clear a b)
    (h : a.literal = b.literal) : a.form = b.form :=
  (readable_payload a b ha hb hc [] [] noDigit_nil noDigit_nil (by rw [h])).1

theorem Payload.deepEquals_of_literal_eq (ha : Payload a) (hb : Payload b) (hc : Clear a b)
    (h : a.literal = b.literal) : deepEquals a b = .equal :=
  (ha.wellFormed.deepEquals_iff hb.wellFormed).mpr (ha.form_eq_of_literal_eq hb hc h)

section Arrays

/-- Leaves in sequences. -/
inductive ArrayPayload : Value → Prop
  | leaf {l : Leaf} (h : l.lead?.isSome = true) : ArrayPayload (.leaf l)
  | seq {kind : SeqKind} {items : List Value} (h : ∀ v ∈ items, ArrayPayload v) :
    ArrayPayload (.seq kind items)

theorem ArrayPayload.payload (h : ArrayPayload v) : Payload v := by
  induction h with
  | leaf h => exact .leaf h
  | seq h ih => exact .seq ih

theorem ArrayPayload.leaves (kind : SeqKind) (leaves : List Leaf)
    (h : ∀ l ∈ leaves, l.lead?.isSome = true) : ArrayPayload (.seq kind (leaves.map .leaf)) :=
  .seq (List.forall_mem_map.mpr fun l hl => .leaf (h l hl))

theorem ArrayPayload.objectKeys_eq_nil (h : ArrayPayload v) : v.objectKeys = [] := by
  induction h with
  | leaf h => rfl
  | seq h ih =>
    rw [objectKeys, List.eq_nil_iff_forall_not_mem]
    intro s hs
    obtain ⟨v, hv, hs⟩ := mem_objectKeysIn.mp hs
    rw [ih v hv] at hs
    cases hs

theorem ArrayPayload.clear (h : ArrayPayload a) (b : Value) : Clear a b := by
  intro s hs
  rw [h.objectKeys_eq_nil] at hs
  cases hs

theorem ArrayPayload.form_eq_of_literal_eq (ha : ArrayPayload a) (hb : ArrayPayload b)
    (h : a.literal = b.literal) : a.form = b.form :=
  ha.payload.form_eq_of_literal_eq hb.payload (ha.clear b) h

theorem ArrayPayload.literal_eq_of_form_eq (a b : Value) (ha : ArrayPayload a) (hb : ArrayPayload b)
    (h : a.form = b.form) : a.literal = b.literal := by
  induction a, b using alignedInduction with
  | leaf a b =>
    cases ha with
    | leaf ha =>
      cases hb with
      | leaf hb => rw [Leaf.eq_of_form_eq ha hb h]
  | seq j k xs ys ih =>
    cases ha with
    | seq ha =>
      cases hb with
      | seq hb =>
        have part : ∀ x ∈ xs, ∀ y ∈ ys, x.form = y.form → x.literal = y.literal := fun x hx y hy =>
          ih x (List.mem_append_left _ hx) y (List.mem_append_right _ hy) (ha x hx) (hb y hy)
        simp only [form, forms_eq_map, Form.seq.injEq] at h
        rw [literal_seq, literal_seq, map_eq_map_of_imp part h]
  | mapping j k xs ys ih => cases ha
  | set j k xs ys ih => cases ha
  | record t u i j ih => cases ha
  | apart a b hn => exact absurd (aligned_of_form_eq h) hn

/-- Of arrays, the literal is a canonical form. -/
theorem ArrayPayload.literal_eq_iff (ha : ArrayPayload a) (hb : ArrayPayload b) :
    a.literal = b.literal ↔ deepEquals a b = .equal := by
  rw [ha.payload.wellFormed.deepEquals_iff hb.payload.wellFormed]
  exact ⟨ha.form_eq_of_literal_eq hb, ArrayPayload.literal_eq_of_form_eq a b ha hb⟩

/-- Commas and brackets in text do not end an item, and a truth value is no number. -/
theorem ArrayPayload.literal_eq_iff_nested :
    let comma := Value.leaf (.text "\", s\"], [ ")
    let raw := Value.leaf (.rawRecord "t:[ 1 ]\\")
    let a := Value.seq (.list 1) [.seq (.tuple none) [comma, raw], .seq (.list 2) [], .leaf (.int 1)]
    let b := Value.seq (.tuple none) [.seq (.list 3) [comma, raw], .seq (.tuple none) [], .leaf (.int 1)]
    let c := Value.seq (.list 1) [.seq (.list 3) [comma, raw], .seq (.list 2) [], .leaf (.bool true)]
    deepEquals a b = .equal ∧ deepEquals a c ≠ .equal := by
  intro comma raw a b c
  have rows : ∀ {j k l : SeqKind} {last : Leaf}, last.lead?.isSome = true →
      ArrayPayload (.seq j [.seq k [comma, raw], .seq l [], .leaf last]) := by
    intro j k l last hlast
    refine .seq ?_
    simp only [List.forall_mem_cons, List.not_mem_nil, false_implies, implies_true, and_true]
    exact ⟨leaves k [.text "\", s\"], [ ", .rawRecord "t:[ 1 ]\\"] (by decide),
      leaves l [] (by decide), .leaf hlast⟩
  constructor
  · exact (ArrayPayload.literal_eq_iff (rows rfl) (rows rfl)).mp (by decide +kernel)
  · exact mt (ArrayPayload.literal_eq_iff (rows rfl) (rows rfl)).mpr (by decide +kernel)

end Arrays

section Objects

/-- A key that holds the end of one key, an item, and the beginning of the next key. -/
def mergedKey (u item next : List Char) : List Char :=
  u ++ closeDelimiter :: ':' :: ' ' :: (item ++ ',' :: ' ' :: openDelimiter :: next)

theorem mark_mergedKey (u : List Char) {item : List Char} (h : closeDelimiter ∉ item)
    (next : List Char) :
    mark (mergedKey u item next) = mergedKey (mark u ++ [escapeMark]) item (mark next) := by
  have hsep : ∀ t, mark (',' :: ' ' :: openDelimiter :: t) = ',' :: ' ' :: openDelimiter :: mark t :=
    fun t => by rw [mark_other (by decide), mark_other (by decide), mark_other (by decide)]
  rw [mergedKey, mark_append, mark_close, mark_other (by decide), mark_other (by decide), mark_append,
    mark_eq_self h, hsep, mergedKey, List.append_assoc]
  rfl

/-- An entry whose key ends in a backslash reads as the beginning of the key behind it. -/
theorem literal_mergedKey (j k : MapKind) (u : List Char) {x : Value} (hx : closeDelimiter ∉ x.literal)
    {next : List Char} (hn : ¬ StandsBare next) (y : Value) :
    literal (.mapping j [(.leaf (.text (String.ofList (u ++ [escapeMark]))), x),
        (.leaf (.text (String.ofList next)), y)]) =
      literal (.mapping k [(.leaf (.text (String.ofList (mergedKey u x.literal next))), y)]) := by
  have hu := not_standsBare_of_mem (t := u ++ [escapeMark]) (c := escapeMark) (by decide) (by simp)
  have hm := not_standsBare_of_mem (t := mergedKey u x.literal next) (c := closeDelimiter) (by decide)
    (by simp [mergedKey])
  have hfirst : write (u ++ [escapeMark]) =
      openDelimiter :: (mark u ++ [escapeMark, closeDelimiter]) := by
    simp [write_of_not_standsBare hu, mark_append, show mark [escapeMark] = [escapeMark] from rfl]
  -- The mark of a closing delimiter in a key is the backslash that the shorter key ends in.
  have hmerged : write (mergedKey u x.literal next) =
      openDelimiter :: (mergedKey (mark u ++ [escapeMark]) x.literal (mark next) ++ [closeDelimiter]) := by
    rw [write_of_not_standsBare hm, mark_mergedKey u hx]
  rw [literal_mapping, literal_mapping]
  simp only [enclosed, commaSeparated, entry, display, Leaf.display, String.toList_ofList,
    List.map_cons, List.map_nil, hfirst, hmerged, write_of_not_standsBare hn]
  simp [mergedKey]

theorem payload_mapping (kind : MapKind) (entries : List (String × Value))
    (hk : (entries.map (·.1)).Nodup) (hi : ∀ e ∈ entries, Payload e.2) :
    Payload (.mapping kind (entries.map fun e => (.leaf (.text e.1), e.2))) := by
  refine .mapping (keysApart_texts.mpr hk) ?_ ?_
  · exact List.forall_mem_map.mpr fun e _ => ⟨e.1, rfl⟩
  · exact List.forall_mem_map.mpr hi

/-- Payloads that read alike are deeply equal, unless a key of one runs into a key of the
other. A key that ends in a backslash does so: with an entry behind it, it reads as one key. -/
theorem Payload.literal_unambiguous (ha : Payload a) (hb : Payload b) :
    (Clear a b → a.literal = b.literal → deepEquals a b = .equal) ∧
      ∀ s : String, s.toList.getLast? = some escapeMark → ∃ c d, Payload c ∧ Payload d ∧
        c.objectKeys = [s.toList, "b c".toList] ∧
        (∀ t ∈ d.objectKeys, t.getLast? ≠ some escapeMark) ∧
        c.literal = d.literal ∧ deepEquals c d = .unequal := by
  refine ⟨ha.deepEquals_of_literal_eq hb, fun s hs => ?_⟩
  obtain ⟨u, hu⟩ := List.getLast?_eq_some_iff.mp hs
  have hsu : s = String.ofList (u ++ [escapeMark]) := by rw [← hu, String.ofList_toList]
  have hne : s ≠ "b c" := by
    rintro rfl
    exact absurd hs (by decide)
  -- The merged key goes on with the rest of the first entry and the second key.
  let merged := mergedKey u ['1'] "b c".toList
  have hlast : merged.getLast? = some 'c' := by simp [merged, mergedKey]
  let c := Value.mapping (.dict 0) [(.leaf (.text s), .leaf (.int 1)), (.leaf (.text "b c"), .leaf (.int 2))]
  let d := Value.mapping (.dict 1) [(.leaf (.text (String.ofList merged)), .leaf (.int 2))]
  have int : ∀ n, Payload (.leaf (.int n)) := fun n => .leaf rfl
  have hc : Payload c := payload_mapping (.dict 0) [(s, .leaf (.int 1)), ("b c", .leaf (.int 2))]
    (by simp [hne]) (by simp [int])
  have hd : Payload d := payload_mapping (.dict 1) [(String.ofList merged, .leaf (.int 2))]
    (by simp) (by simp [int])
  have hkeys : d.objectKeys = [merged] := by
    simp [d, objectKeys, objectKeysInEntries, display, Leaf.display]
  have hread : c.literal = d.literal := by
    have h := literal_mergedKey (.dict 0) (.dict 1) u (x := .leaf (.int 1)) (by decide)
      (show ¬ StandsBare "b c".toList by decide) (.leaf (.int 2))
    rwa [← hsu] at h
  have hdiffer : deepEquals c d = .unequal := by
    rw [deepEquals_mapping, if_neg (by simp [same, ident?, MapKind.ident?]), if_neg (by simp)]
  refine ⟨c, d, hc, hd, rfl, ?_, hread, hdiffer⟩
  rw [hkeys, List.forall_mem_singleton, hlast]
  decide

/-- A key that ends in a backslash does no harm where no other key goes on as its entry does. -/
theorem Payload.literal_unambiguous_backslash :
    let row := fun kind => Value.seq kind [.leaf .null, .leaf (.text ", ⟨a\\⟩: ")]
    let one := Value.leaf (.int 1)
    let a := Value.mapping (.dict 0) [(.leaf (.text "a\\"), row (.list 1)), (.leaf (.text "⟩"), one)]
    let b := Value.mapping (.view none)
      [(.leaf (.text "a\\"), row (.tuple none)), (.leaf (.text "⟩"), one)]
    Clear a b ∧ a.literal = b.literal ∧ deepEquals a b = .equal := by
  intro row one a b
  have hrow : ∀ kind, Payload (row kind) := fun kind =>
    (ArrayPayload.leaves kind [.null, .text ", ⟨a\\⟩: "] (by decide)).payload
  have hone : Payload one := .leaf rfl
  have payload : ∀ k kind, Payload (.mapping k [(.leaf (.text "a\\"), row kind), (.leaf (.text "⟩"), one)]) :=
    fun k kind => payload_mapping k [("a\\", row kind), ("⟩", one)] (by simp) (by simp [hrow, hone])
  have hclear : Clear a b := by decide +kernel
  have halike : a.literal = b.literal := by decide +kernel
  exact ⟨hclear, halike, (Payload.literal_unambiguous (payload _ _) (payload _ _)).1 hclear halike⟩

/-- Two entries and one with the same literal. -/
theorem literal_merged_entries :
    let two := Value.mapping (.dict 0) [(.leaf (.text "a\\"), .leaf (.int 1)),
      (.leaf (.text "b c"), .leaf (.int 2))]
    let single := Value.mapping (.dict 1) [(.leaf (.text "a⟩: 1, ⟨b c"), .leaf (.int 2))]
    two.literal = single.literal ∧ deepEquals two single ≠ .equal := by
  decide +kernel

end Objects

end Value

end RecordLiteral
