import RecordLiteral.Proofs.Document
import RecordLiteral.Proofs.Readability
import RecordLiteral.Value.Json

/-! # Values in JSON text

Scalars, identifiers and records, in sequences and under the text keys of dictionaries,
have JSON text in both alphabets, and the reader makes of it the document in which records
and identifiers stand as the text that they are displayed as. A quoted text gives back its
units whatever its escapes, so literals that hold quotes, backslashes and characters of two
units come back as they were.
-/
namespace RecordLiteral

namespace Json

open Literal Numeral

/-- What may stand behind a document: nothing, or what goes on with the one around it. -/
def Stops (rest : List Char) : Prop := ∀ c ∈ rest.head?, c = ',' ∨ c = ']' ∨ c = '\x7d'

/-- A document begins neither with a blank nor with a closing bracket. -/
def Opens (text : List Char) : Prop :=
  ∃ c tail, text = c :: tail ∧ isBlank c = false ∧ c ≠ ']' ∧ c ≠ '\x7d'

section Scalars
variable {text rest : List Char} {c : Char}

theorem stops_nil : Stops [] := by
  simp [Stops]

theorem stops_cons (h : c = ',' ∨ c = ']' ∨ c = '\x7d') (rest : List Char) : Stops (c :: rest) := by
  simpa [Stops] using h

theorem Stops.head_not (h : Stops rest) {p : Char → Bool}
    (hp : p ',' = false ∧ p ']' = false ∧ p '\x7d' = false) : ∀ c ∈ rest.head?, p c = false := by
  intro c hc
  rcases h c hc with rfl | rfl | rfl
  · exact hp.1
  · exact hp.2.1
  · exact hp.2.2

theorem Stops.noDigit (h : Stops rest) : NoDigit rest := h.head_not (by decide)

theorem skip_cons (hc : isBlank c = false) (text : List Char) : skip (c :: text) = c :: text := by
  simp [skip, hc]

theorem Stops.skip_eq (h : Stops rest) : skip rest = rest := by
  cases rest with
  | nil => rfl
  | cons c rest => exact skip_cons (h.head_not (by decide) c rfl) rest

theorem Opens.skip_append (h : Opens text) (rest : List Char) : skip (text ++ rest) = text ++ rest := by
  obtain ⟨c, tail, rfl, hc, -⟩ := h
  exact skip_cons hc (tail ++ rest)

theorem whole?_natural (n : Nat) (h : NoDigit rest) :
    whole? (natural n ++ rest) = some (natural n, rest) := by
  by_cases hn : n = 0
  · subst hn
    rfl
  · obtain ⟨c, digits, hc, hzero⟩ := natural_head_ne_zero hn
    have hd : ∀ d ∈ c :: digits, d.isDigit = true := fun d hd =>
      isDigit_of_mem_natural (n := n) (by rw [hc]; exact hd)
    have htail : ∀ d ∈ digits, d.isDigit = true := fun d h => hd d (List.mem_cons_of_mem c h)
    rw [hc, List.cons_append, whole?, if_pos (hd c List.mem_cons_self), takeWhile_append_stop htail h,
      dropWhile_append_stop htail h]
    exact hzero

theorem places_of_stops (h : Stops rest) : places rest = ([], rest) := by
  unfold places
  split
  · exact absurd (h '.' rfl) (by decide)
  · rfl

theorem power?_of_stops (h : Stops rest) : power? rest = (none, rest) := by
  cases rest with
  | nil => rfl
  | cons c rest =>
    have hc : ¬ (c = 'e' ∨ c = 'E') := by
      rcases h c rfl with rfl | rfl | rfl <;> decide
    simp [power?, hc]

theorem unsigned?_natural (negative : Bool) (n : Nat) (h : Stops rest) :
    unsigned? negative (natural n ++ rest) =
      some (.integer (if negative then -n else n), rest) := by
  have hn : Nat.ofDigitChars 10 (natural n) 0 = n := Nat.ofDigitChars_toDigits (by decide) (by decide)
  simp [unsigned?, whole?_natural n h.noDigit, places_of_stops h, power?_of_stops h, hn]

theorem number?_signed (n : Int) (h : Stops rest) :
    number? (signed n ++ rest) = some (.integer n, rest) := by
  cases n with
  | ofNat n =>
    have hminus : ∀ tail, natural n ++ rest ≠ '-' :: tail := natural_append_ne_minus n rest
    have hn : number? (natural n ++ rest) = unsigned? false (natural n ++ rest) := by
      unfold number?
      split
      · exact absurd ‹_› (hminus _)
      · rfl
    exact hn.trans (unsigned?_natural false n h)
  | negSucc n =>
    have hn : number? ('-' :: (natural (n + 1) ++ rest)) = unsigned? true (natural (n + 1) ++ rest) :=
      rfl
    exact hn.trans (unsigned?_natural true (n + 1) h)

theorem scalar?_signed (n : Int) (h : Stops rest) :
    scalar? (signed n ++ rest) = some (.integer n, rest) := by
  have hhead : ∀ {c tail}, signed n ++ rest = c :: tail → c = '-' ∨ c.isDigit = true := by
    intro c tail heq
    obtain ⟨d, digits, hn, hd⟩ := signed_head n
    rw [hn, List.cons_append] at heq
    rwa [← (List.cons.inj heq).1]
  rw [← number?_signed n h]
  unfold scalar?
  split
  · exact absurd (hhead ‹_›) (by decide)
  · exact absurd (hhead ‹_›) (by decide)
  · exact absurd (hhead ‹_›) (by decide)
  · exact absurd (hhead ‹_›) (by decide)
  · rfl

theorem scalar?_quoted (alphabet : Quoted.Alphabet) (s rest : List Char) :
    scalar? (Quoted.write alphabet s ++ rest) = some (.string s, rest) := by
  have hs := Quoted.read?_write alphabet s rest
  rw [Quoted.write, List.cons_append] at *
  rw [scalar?, hs, Option.map_some]

end Scalars

section Items
variable {α : Type} {bound : Nat} {item? : Reader bound α} {closing : Char} {rest : List Char}

theorem next?_cons {c : Char} (hc : isBlank c = false) (text : List Char) (h : skip text = rest) :
    ∃ h', next? (c :: text) = some (c, ⟨rest, h'⟩) := by
  subst h
  have hs : symbol? (c :: text) = some (c, skip text) := by
    rw [symbol?, skip_cons hc]
  exact ⟨_, progressing_eq hs⟩

/-- The text is read as the item, whatever it stops in front of. -/
def Yields (item? : Reader bound α) (text : List Char) (a : α) : Prop :=
  Opens text ∧ ∀ rest h, Stops rest → ∃ h', item? (text ++ rest) h = some (a, ⟨rest, h'⟩)

theorem isBlank_closing (h : closing = ']' ∨ closing = '\x7d') : isBlank closing = false := by
  rcases h with rfl | rfl <;> rfl

theorem following_cons_append (q : List Char) (ps : List (List Char)) (x : List Char) :
    following (q :: ps) ++ x = ',' :: ' ' :: (q ++ (following ps ++ x)) := by
  simp [following]

theorem itemsFrom?_yields (hc : closing = ']' ∨ closing = '\x7d') {p : List Char} {a : α}
    {ps : List (List Char)} {as : List α} (first : Yields item? p a)
    (others : List.Forall₂ (Yields item?) ps as) (hr : Stops rest)
    (h : (p ++ (following ps ++ closing :: rest)).length < bound) :
    ∃ h', itemsFrom? closing item? (p ++ (following ps ++ closing :: rest)) h =
      some (a :: as, ⟨rest, h'⟩) := by
  induction others generalizing p a with
  | nil =>
    obtain ⟨h₁, hitem⟩ := first.2 (following [] ++ closing :: rest) h (stops_cons (Or.inr hc) rest)
    obtain ⟨h₂, hnext⟩ := next?_cons (isBlank_closing hc) rest hr.skip_eq
    have hnext : next? (following [] ++ closing :: rest) = some (closing, ⟨rest, h₂⟩) := hnext
    refine ⟨Nat.lt_trans h₂ h₁, ?_⟩
    rw [itemsFrom?, hitem]
    simp only [hnext, if_true]
    rfl
  | @cons q b ps as hq hothers ih =>
    have hskip : skip (' ' :: (q ++ (following ps ++ closing :: rest))) =
        q ++ (following ps ++ closing :: rest) := hq.1.skip_append _
    have hcomma : ¬ ',' = closing := by
      rcases hc with rfl | rfl <;> decide
    revert h
    rw [following_cons_append]
    intro h
    obtain ⟨h₁, hitem⟩ := first.2 _ h (stops_cons (Or.inl rfl) _)
    obtain ⟨h₂, hnext⟩ := next?_cons (c := ',') rfl _ hskip
    obtain ⟨h₃, hfrom⟩ := ih hq (Nat.lt_trans (Nat.lt_trans h₂ h₁) h)
    refine ⟨Nat.lt_trans h₃ (Nat.lt_trans h₂ h₁), ?_⟩
    rw [itemsFrom?, hitem]
    simp only [hnext, if_neg hcomma, if_true, hfrom, Option.map_some]
    rfl

theorem items?_yields (hc : closing = ']' ∨ closing = '\x7d') {ps : List (List Char)} {as : List α}
    (h : List.Forall₂ (Yields item?) ps as) (hr : Stops rest)
    (hb : (commaSeparated ps ++ closing :: rest).length < bound) :
    ∃ h', items? closing item? (commaSeparated ps ++ closing :: rest) hb = some (as, ⟨rest, h'⟩) := by
  cases h with
  | nil =>
    obtain ⟨h', hnext⟩ := next?_cons (isBlank_closing hc) rest hr.skip_eq
    have hnext : next? (commaSeparated [] ++ closing :: rest) = some (closing, ⟨rest, h'⟩) := hnext
    refine ⟨h', ?_⟩
    rw [items?, hnext]
    simp only [if_true]
  | @cons p a ps as first others =>
    revert hb
    rw [commaSeparated_cons, List.append_assoc]
    intro hb
    obtain ⟨h', hfrom⟩ := itemsFrom?_yields hc first others hr hb
    obtain ⟨c, tail, rfl, hblank, hsquare, hcurly⟩ := first.1
    obtain ⟨h'', hnext⟩ := next?_cons hblank (tail ++ (following ps ++ closing :: rest)) rfl
    have hne : ¬ c = closing := by
      rcases hc with rfl | rfl
      · exact hsquare
      · exact hcurly
    refine ⟨h', ?_⟩
    rw [← hfrom, items?]
    simp only [List.cons_append, hnext, if_neg hne]

theorem skip_items (hc : closing = ']' ∨ closing = '\x7d') {ps : List (List Char)} {as : List α}
    (h : List.Forall₂ (Yields item?) ps as) (rest : List Char) :
    skip (commaSeparated ps ++ closing :: rest) = commaSeparated ps ++ closing :: rest := by
  cases h with
  | nil => exact skip_cons (isBlank_closing hc) rest
  | cons first others =>
    rw [commaSeparated_cons, List.append_assoc]
    exact first.1.skip_append _

/-- Behind an opening bracket the items are read up to the closing one. -/
theorem items?_behind (opening : Char) (ho : isBlank opening = false)
    (hc : closing = ']' ∨ closing = '\x7d') {ps : List (List Char)} {as : List α}
    {item? : Reader (opening :: (commaSeparated ps ++ closing :: rest)).length α}
    (h : List.Forall₂ (Yields item?) ps as) (hr : Stops rest) :
    ∃ h₁ h₂, next? (opening :: (commaSeparated ps ++ closing :: rest)) =
        some (opening, ⟨commaSeparated ps ++ closing :: rest, h₁⟩) ∧
      items? closing item? (commaSeparated ps ++ closing :: rest) h₁ = some (as, ⟨rest, h₂⟩) := by
  obtain ⟨h₁, hnext⟩ := next?_cons ho _ (skip_items hc h rest)
  obtain ⟨h₂, hread⟩ := items?_yields hc h hr h₁
  exact ⟨h₁, h₂, hnext, hread⟩

theorem member?_yields {item? : Reader bound Json} {alphabet : Quoted.Alphabet}
    {key text : List Char} {document : Json} (h : Yields item? text document) :
    Yields (member? item?) (Quoted.write alphabet key ++ ':' :: ' ' :: text) (key, document) := by
  refine ⟨⟨'"', _, rfl, rfl, by decide, by decide⟩, fun rest hb hr => ?_⟩
  have htext : (Quoted.write alphabet key ++ ':' :: ' ' :: text) ++ rest =
      Quoted.write alphabet key ++ ':' :: ' ' :: (text ++ rest) := by
    simp
  revert hb
  rw [htext]
  intro hb
  have hkey := progressing_eq (h := Quoted.read?_length_lt)
    (Quoted.read?_write alphabet key (':' :: ' ' :: (text ++ rest)))
  have hskip : skip (' ' :: (text ++ rest)) = text ++ rest := h.1.skip_append rest
  obtain ⟨h₁, hcolon⟩ := next?_cons (c := ':') rfl _ hskip
  have h₂ := Quoted.read?_length_lt (Quoted.read?_write alphabet key (':' :: ' ' :: (text ++ rest)))
  obtain ⟨h₃, hitem⟩ := h.2 rest (Nat.lt_trans (Nat.lt_trans h₁ h₂) hb) hr
  refine ⟨Nat.lt_trans h₃ (Nat.lt_trans h₁ h₂), ?_⟩
  rw [member?, hkey]
  simp only [hcolon, if_true, hitem, Option.map_some]
  rfl

end Items

/-- The text is read as the document. -/
def Prints (text : List Char) (document : Json) : Prop :=
  Opens text ∧ ∀ rest, Stops rest → ∃ h, value? (text ++ rest) = some (document, ⟨rest, h⟩)

section Values
variable {text : List Char} {document : Json} {texts : List (List Char)} {documents : List Json}

theorem Prints.yields (h : Prints text document) (bound : Nat) :
    Yields (fun part (_ : part.length < bound) => value? part) text document :=
  ⟨h.1, fun rest _ hr => h.2 rest hr⟩

theorem Prints.scalar {c : Char} {tail : List Char} (ht : text = c :: tail)
    (hc : isBlank c = false ∧ c ∉ ['[', ']', '\x7b', '\x7d'])
    (h : ∀ rest, Stops rest → scalar? (text ++ rest) = some (document, rest)) :
    Prints text document := by
  simp only [List.mem_cons, List.not_mem_nil, or_false, not_or] at hc
  obtain ⟨hblank, hsquare, hclose, hcurly, hclose'⟩ := hc
  refine ⟨⟨c, tail, ht, hblank, hclose, hclose'⟩, fun rest hr => ?_⟩
  have hs := progressing_eq (h := scalar?_length_lt) (h rest hr)
  subst ht
  obtain ⟨h', hnext⟩ := next?_cons hblank (tail ++ rest) rfl
  refine ⟨scalar?_length_lt (h rest hr), ?_⟩
  rw [← hs, value?, List.cons_append, hnext]
  split
  · exact absurd (congrArg Prod.fst (Option.some.inj ‹_›)) hsquare
  · exact absurd (congrArg Prod.fst (Option.some.inj ‹_›)) hcurly
  · rfl

theorem Prints.array (h : List.Forall₂ Prints texts documents) :
    Prints (Value.bracketed (commaSeparated texts)) (.array documents) := by
  refine ⟨⟨'[', _, rfl, rfl, by decide, by decide⟩, fun rest hr => ?_⟩
  have htext : Value.bracketed (commaSeparated texts) ++ rest =
      '[' :: (commaSeparated texts ++ ']' :: rest) := by
    simp [Value.bracketed]
  obtain ⟨h₁, h₂, hnext, hread⟩ := items?_behind '[' rfl (Or.inl rfl)
    (h.imp fun _ _ hp => hp.yields _) hr
  rw [htext]
  refine ⟨Nat.lt_trans h₂ h₁, ?_⟩
  rw [value?, hnext]
  simp only [hread, Option.map_some]
  rfl

/-- The text of an entry: its quoted key, and the text of its item behind a colon. -/
def PrintsMember (alphabet : Quoted.Alphabet) (text : List Char) (entry : List Char × Json) : Prop :=
  ∃ item, text = Quoted.write alphabet entry.1 ++ ':' :: ' ' :: item ∧ Prints item entry.2

theorem PrintsMember.yields {alphabet : Quoted.Alphabet} {entry : List Char × Json}
    (h : PrintsMember alphabet text entry) (bound : Nat) :
    Yields (member? fun part (_ : part.length < bound) => value? part) text entry := by
  obtain ⟨item, rfl, hp⟩ := h
  exact member?_yields (hp.yields bound)

theorem Prints.object {alphabet : Quoted.Alphabet} {entries : List (List Char × Json)}
    (h : List.Forall₂ (PrintsMember alphabet) texts entries) :
    Prints (Value.braced (commaSeparated texts)) (.object (entries.foldl put [])) := by
  refine ⟨⟨'\x7b', _, rfl, rfl, by decide, by decide⟩, fun rest hr => ?_⟩
  have htext : Value.braced (commaSeparated texts) ++ rest =
      '\x7b' :: (commaSeparated texts ++ '\x7d' :: rest) := by
    simp [Value.braced]
  obtain ⟨h₁, h₂, hnext, hread⟩ := items?_behind '\x7b' rfl (Or.inr rfl)
    (h.imp fun _ _ hp => hp.yields _) hr
  rw [htext]
  refine ⟨Nat.lt_trans h₂ h₁, ?_⟩
  rw [value?, hnext]
  simp only [hread, Option.map_some]
  rfl

theorem Prints.read? (h : Prints text document) : Json.read? text = some document := by
  obtain ⟨h', hv⟩ := h.2 [] stops_nil
  have hskip : skip text = text ++ [] := by
    rw [← h.1.skip_append [], List.append_nil]
  rw [Json.read?, hskip, hv]
  rfl

end Values

theorem put_new {entries : List (List Char × Json)} {entry : List Char × Json}
    (h : entry.1 ∉ entries.map Prod.fst) : put entries entry = entries ++ [entry] := by
  have hany : entries.any (·.1 = entry.1) = false := by
    refine List.any_eq_false.mpr fun e he hk => h ?_
    rw [← of_decide_eq_true hk]
    exact List.mem_map_of_mem he
  rw [put, hany, if_neg Bool.false_ne_true]

/-- Entries whose keys are told apart are all kept, in their order. -/
theorem foldl_put (before : List (List Char × Json)) {entries : List (List Char × Json)}
    (h : ((before ++ entries).map Prod.fst).Nodup) : entries.foldl put before = before ++ entries := by
  induction entries generalizing before with
  | nil => simp
  | cons entry entries ih =>
    have hnew : entry.1 ∉ before.map Prod.fst := by
      rw [List.map_append, List.map_cons] at h
      exact fun hm => (List.nodup_append.mp h).2.2 _ hm _ List.mem_cons_self rfl
    rw [List.foldl_cons, put_new hnew, ih _ (by simpa using h), List.append_assoc,
      List.singleton_append]

end Json

namespace Value

mutual

/-- The document of a value: what has no form of its own in JSON stands as the text that it is
displayed as. -/
def document : Value → Json
  | .leaf .null => .null
  | .leaf (.bool b) => .bool b
  | .leaf (.int n) => .integer n
  | .leaf l => .string l.display
  | .seq _ items => .array (documents items)
  | .mapping _ entries => .object (memberDocuments entries)
  | v => .string v.display

def documents : List Value → List Json
  | [] => []
  | v :: rest => document v :: documents rest

def memberDocuments : List (Value × Value) → List (List Char × Json)
  | [] => []
  | (key, item) :: rest => (display key, document item) :: memberDocuments rest

end

theorem memberDocuments_eq_map (entries : List (Value × Value)) :
    memberDocuments entries = entries.map fun e => (e.1.display, e.2.document) := by
  induction entries with
  | nil => rfl
  | cons e rest ih => simp [memberDocuments, ih]

/-- Scalars, identifiers and records, in sequences and under the text keys of dictionaries. -/
inductive Embeddable : Value → Prop
  | null : Embeddable (.leaf .null)
  | bool (b : Bool) : Embeddable (.leaf (.bool b))
  | int (n : Int) : Embeddable (.leaf (.int n))
  | text (s : String) : Embeddable (.leaf (.text s))
  | uuid (u : Uuid) : Embeddable (.leaf (.uuid u))
  | rawRecord (literal : String) : Embeddable (.leaf (.rawRecord literal))
  | record (table : String) (id : Value) : Embeddable (.record table id)
  | seq {kind : SeqKind} {items : List Value} (h : ∀ v ∈ items, Embeddable v) :
    Embeddable (.seq kind items)
  | dictionary {kind : MapKind} {entries : List (Value × Value)} (native : ∀ i, kind ≠ .view i)
    (apart : KeysApart entries) (texts : ∀ e ∈ entries, ∃ s, e.1 = .leaf (.text s))
    (items : ∀ e ∈ entries, Embeddable e.2) : Embeddable (.mapping kind entries)

theorem embeddable_dictionary (ident : Ident) (entries : List (String × Value))
    (hk : (entries.map (·.1)).Nodup) (hi : ∀ e ∈ entries, Embeddable e.2) :
    Embeddable (.mapping (.dict ident) (entries.map fun e => (.leaf (.text e.1), e.2))) := by
  refine .dictionary (by simp) (keysApart_texts.mpr hk) ?_ ?_
  · exact List.forall_mem_map.mpr fun e _ => ⟨e.1, rfl⟩
  · exact List.forall_mem_map.mpr hi

section Embedding
variable {alphabet : Quoted.Alphabet} {v : Value} {items : List Value}
  {entries : List (Value × Value)}

/-- The value has JSON text, which is read as its document. -/
def Embeds (alphabet : Quoted.Alphabet) (v : Value) : Prop :=
  ∃ text, v.json? alphabet = .ok text ∧ Json.Prints text v.document

theorem embeds_of_quoted {s : List Char} (hj : v.json? alphabet = .ok (Quoted.write alphabet s))
    (hd : v.document = .string s) : Embeds alphabet v := by
  refine ⟨_, hj, ?_⟩
  rw [hd]
  exact Json.Prints.scalar (c := '"') rfl (by decide) fun rest _ => Json.scalar?_quoted alphabet s rest

theorem embeds_bool (b : Bool) : Embeds alphabet (.leaf (.bool b)) := by
  cases b with
  | false => exact ⟨_, rfl, Json.Prints.scalar (c := 'f') rfl (by decide) fun _ _ => rfl⟩
  | true => exact ⟨_, rfl, Json.Prints.scalar (c := 't') rfl (by decide) fun _ _ => rfl⟩

theorem embeds_int (n : Int) : Embeds alphabet (.leaf (.int n)) := by
  obtain ⟨c, tail, hn, hc⟩ := Numeral.signed_head n
  have hne : ∀ d : Char, ¬ (d = '-' ∨ d.isDigit = true) → c ≠ d := fun d hd he => hd (he ▸ hc)
  have hblank : Json.isBlank c = false := by
    simp [Json.isBlank, hne ' ' (by decide), hne '\t' (by decide), hne '\n' (by decide),
      hne '\r' (by decide)]
  have hbracket : c ∉ ['[', ']', '\x7b', '\x7d'] := by
    simp [hne '[' (by decide), hne ']' (by decide), hne '\x7b' (by decide), hne '\x7d' (by decide)]
  exact ⟨_, rfl, Json.Prints.scalar hn ⟨hblank, hbracket⟩ fun rest hr => Json.scalar?_signed n hr⟩

theorem embeds_items (h : ∀ v ∈ items, Embeds alphabet v) :
    ∃ texts, jsonItems? alphabet items = .ok texts ∧
      List.Forall₂ Json.Prints texts (documents items) := by
  induction items with
  | nil => exact ⟨[], rfl, .nil⟩
  | cons v rest ih =>
    obtain ⟨text, hj, hp⟩ := h v List.mem_cons_self
    obtain ⟨texts, hjs, hps⟩ := ih fun w hw => h w (List.mem_cons_of_mem v hw)
    exact ⟨text :: texts, by rw [jsonItems?, hj, hjs]; rfl, .cons hp hps⟩

theorem embeds_entries (hk : ∀ e ∈ entries, ∃ s, e.1 = .leaf (.text s))
    (h : ∀ e ∈ entries, Embeds alphabet e.2) :
    ∃ texts, jsonEntries? alphabet entries = .ok texts ∧
      List.Forall₂ (Json.PrintsMember alphabet) texts (memberDocuments entries) := by
  induction entries with
  | nil => exact ⟨[], rfl, .nil⟩
  | cons e rest ih =>
    obtain ⟨key, item⟩ := e
    obtain ⟨s, rfl⟩ := hk (key, item) List.mem_cons_self
    obtain ⟨text, hj, hp⟩ := h _ List.mem_cons_self
    obtain ⟨texts, hjs, hps⟩ := ih (fun e he => hk e (List.mem_cons_of_mem _ he))
      fun e he => h e (List.mem_cons_of_mem _ he)
    refine ⟨(Quoted.write alphabet s.toList ++ ':' :: ' ' :: text) :: texts, ?_, .cons ⟨text, rfl, hp⟩ hps⟩
    rw [jsonEntries?, hj, hjs]
    rfl

theorem embeds_seq {kind : SeqKind} (h : ∀ v ∈ items, Embeds alphabet v) :
    Embeds alphabet (.seq kind items) := by
  obtain ⟨texts, hj, hp⟩ := embeds_items h
  exact ⟨_, by rw [json?, hj]; rfl, Json.Prints.array hp⟩

theorem memberDocuments_nodup (apart : KeysApart entries)
    (texts : ∀ e ∈ entries, ∃ s, e.1 = .leaf (.text s)) :
    ((memberDocuments entries).map Prod.fst).Nodup := by
  rw [memberDocuments_eq_map, List.map_map]
  exact displays_nodup apart texts

theorem embeds_dictionary {kind : MapKind} (native : ∀ i, kind ≠ .view i) (apart : KeysApart entries)
    (texts : ∀ e ∈ entries, ∃ s, e.1 = .leaf (.text s)) (h : ∀ e ∈ entries, Embeds alphabet e.2) :
    Embeds alphabet (.mapping kind entries) := by
  obtain ⟨members, hj, hp⟩ := embeds_entries texts h
  have hput := Json.foldl_put [] (memberDocuments_nodup apart texts)
  refine ⟨Value.braced (commaSeparated members), ?_, ?_⟩
  · cases kind with
    | view i => exact absurd rfl (native i)
    | dict i | ordered i =>
      rw [json?, hj]
      · rfl
      · simp
  · have := Json.Prints.object hp
    rwa [hput] at this

theorem Embeddable.embeds (h : Embeddable v) (alphabet : Quoted.Alphabet) : Embeds alphabet v := by
  induction h with
  | null => exact ⟨_, rfl, Json.Prints.scalar (c := 'n') rfl (by decide) fun _ _ => rfl⟩
  | bool b => exact embeds_bool b
  | int n => exact embeds_int n
  | text s => exact embeds_of_quoted (s := s.toList) rfl rfl
  | uuid u => exact embeds_of_quoted (s := u.text) rfl rfl
  | rawRecord literal => exact embeds_of_quoted (s := literal.toList) rfl rfl
  | record table id => exact embeds_of_quoted (s := (Value.record table id).display) rfl rfl
  | seq _ ih => exact embeds_seq ih
  | dictionary native apart texts _ ih => exact embeds_dictionary native apart texts ih

end Embedding

/-- Whatever is embeddable has JSON text in both alphabets, and the text is read as the document
of the value. This depends on texts being made of Unicode scalar values: the two halves of a
surrogate pair, as characters of their own, would be read as one character. -/
theorem json?_read?_document {v : Value} (h : Embeddable v) (alphabet : Quoted.Alphabet) :
    ∃ text, v.json? alphabet = .ok text ∧ Json.read? text = some v.document := by
  obtain ⟨text, hj, hp⟩ := h.embeds alphabet
  exact ⟨text, hj, hp.read?⟩

/-- A record with a record in its id, which is quoted twice, and text of a character with two units. -/
theorem json?_read?_document_nested :
    let id := Value.seq (.tuple none) [.record "u v" (.leaf (.text "q\"😀")), .leaf (.bool true)]
    let row := Value.seq (.tuple (some 1)) [.leaf .null, .leaf (.int (-12)), .leaf (.text "😀\n")]
    let others := Value.seq (.list 2) [.leaf (.rawRecord "x:⟨y⟩"), .leaf (.uuid ⟨1⟩)]
    let v := Value.mapping (.dict 0) [(.leaf (.text "a\"⟩"), row), (.leaf (.text "r"), .record "t\\" id),
      (.leaf (.text ""), others)]
    let document := Json.object [
      ("a\"⟩".toList, .array [.null, .integer (-12), .string "😀\n".toList]),
      ("r".toList, .string "⟨t\\⟩:[ r\"⟨u v⟩:⟨q\\\"😀⟩\", true ]".toList),
      ("".toList, .array [.string "x:⟨y⟩".toList,
        .string "00000000-0000-0000-0000-000000000001".toList])]
    Embeddable v ∧ (∃ text, v.json? .ascii = .ok text ∧ Json.read? text = some document) ∧
      ∃ text, v.json? .unicode = .ok text ∧ Json.read? text = some document := by
  intro id row others v document
  have hrow : Embeddable row := .seq (by simp [Embeddable.null, Embeddable.int, Embeddable.text])
  have hothers : Embeddable others := .seq (by simp [Embeddable.rawRecord, Embeddable.uuid])
  have hv : Embeddable v := embeddable_dictionary 0 [("a\"⟩", row), ("r", .record "t\\" id), ("", others)]
    (by decide) (by simp [hrow, hothers, Embeddable.record])
  exact ⟨hv, json?_read?_document hv .ascii, json?_read?_document hv .unicode⟩

end Value
end RecordLiteral
