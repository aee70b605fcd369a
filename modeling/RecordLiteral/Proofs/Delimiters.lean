import RecordLiteral.Proofs.Address
import RecordLiteral.Proofs.Tokens

/-! # Reading identifiers

A written name is read back in two ways: as a text on its own, out of which the marks are
taken again, and from the beginning of a longer text, where the reader has to find the end.
On its own every name comes back, and what is ever written is known exactly. In front of
something else a name comes back unless it ends in a backslash, which the reader takes for
the mark of the closing delimiter behind it.
-/
namespace RecordLiteral.Identifier

variable {s t w body rest : List Char}

/-- Takes the mark from every closing delimiter that has one, from left to right. -/
def unmark : List Char → List Char
  | c :: d :: rest =>
    if c = escapeMark ∧ d = closeDelimiter then d :: unmark rest else c :: unmark (d :: rest)
  | text => text

/-- What stands between delimiters around the whole of a text. -/
def enclosed? : List Char → Option (List Char)
  | c :: rest =>
    if c = openDelimiter ∧ rest.getLast? = some closeDelimiter then some rest.dropLast else none
  | [] => none

def unwrite? (text : List Char) : Option (List Char) :=
  if openDelimiter ∈ text then (enclosed? text).map unmark else some text

/-- Every closing delimiter stands directly behind a mark. -/
def Marked (body : List Char) : Prop :=
  ∀ l r, body = l ++ closeDelimiter :: r → l.getLast? = some escapeMark

/-- A bare word that is no numeral, or a marked text between delimiters that would not do as a
bare word. -/
def Written (w : List Char) : Prop :=
  (w.all isBare = true ∧ isNumberLike w = false) ∨
    ∃ body, w = delimit body ∧ Marked body ∧ (isNumberLike body = true ∨ ∃ c ∈ body, isBare c = false)

theorem unmark_marked (text : List Char) :
    unmark (escapeMark :: closeDelimiter :: text) = closeDelimiter :: unmark text := by
  rw [unmark, if_pos ⟨rfl, rfl⟩]

theorem unmark_cons {c : Char} (h : ¬ (c = escapeMark ∧ s.head? = some closeDelimiter)) :
    unmark (c :: s) = c :: unmark s := by
  cases s with
  | nil => rfl
  | cons d s =>
    rw [unmark, if_neg]
    simpa using h

theorem mark_head_ne_close (s : List Char) : (mark s).head? ≠ some closeDelimiter := by
  intro h
  cases s with
  | nil => cases h
  | cons c s =>
    obtain ⟨tail, ht⟩ := List.head?_eq_some_iff.mp h
    exact mark_ne_close (c :: s) [] tail (by simp) (by rw [List.append_nil, ht])

theorem unmark_mark (s : List Char) : unmark (mark s) = s := by
  induction s with
  | nil => rfl
  | cons c s ih =>
    by_cases hc : c = closeDelimiter
    · subst hc
      rw [mark_close, unmark_marked, ih]
    · rw [mark_other hc, unmark_cons, ih]
      exact fun h => mark_head_ne_close s h.2

theorem endsInMark_cons (h : s.getLast? = some escapeMark) (c : Char) :
    (c :: s).getLast? = some escapeMark := by
  rw [List.getLast?_cons, h]
  rfl

theorem Marked.head_ne (h : Marked (closeDelimiter :: s)) : False := by
  have := h [] s rfl
  cases this

theorem Marked.behind_mark (h : Marked (escapeMark :: closeDelimiter :: s)) : Marked s := by
  intro l r hs
  have := h (escapeMark :: closeDelimiter :: l) r (by rw [hs]; rfl)
  cases l with
  | nil => exact absurd (Option.some.inj this) (by decide)
  | cons d l => simpa using this

theorem Marked.tail {c : Char} (h : Marked (c :: s))
    (hc : ¬ (c = escapeMark ∧ s.head? = some closeDelimiter)) : Marked s := by
  intro l r hs
  have := h (c :: l) r (by rw [hs]; rfl)
  cases l with
  | nil => exact absurd ⟨by simpa using this, by rw [hs]; rfl⟩ hc
  | cons d l => simpa using this

theorem mark_unmark (h : Marked body) : mark (unmark body) = body := by
  induction body using unmark.induct with
  | case1 c d rest hcd ih =>
    obtain ⟨rfl, rfl⟩ := hcd
    rw [unmark_marked, mark_close, ih h.behind_mark]
  | case2 c d rest hcd ih =>
    have hne : ¬ (c = escapeMark ∧ (d :: rest).head? = some closeDelimiter) := by simpa using hcd
    have hc : c ≠ closeDelimiter := by
      rintro rfl
      exact h.head_ne
    rw [unmark_cons hne, mark_other hc, ih (h.tail hne)]
  | case3 text hshort =>
    match text, hshort with
    | [], _ => rfl
    | [c], _ =>
      have hc : c ≠ closeDelimiter := by
        rintro rfl
        exact h.head_ne
      exact mark_other hc []
    | c :: d :: rest, hshort => exact absurd rfl (hshort c d rest)

theorem marked_mark (s : List Char) : Marked (mark s) := by
  induction s with
  | nil =>
    intro l r h
    simp at h
  | cons c s ih =>
    intro l r h
    by_cases hc : c = closeDelimiter
    · subst hc
      rw [mark_close] at h
      match l, h with
      | [], h => exact absurd (List.cons.inj h).1 (by decide)
      | [d], h => rw [(List.cons.inj h).1]; rfl
      | d :: e :: l, h =>
        exact endsInMark_cons (endsInMark_cons (ih l r (List.cons.inj (List.cons.inj h).2).2) e) d
    · rw [mark_other hc] at h
      cases l with
      | nil => exact absurd (List.cons.inj h).1 hc
      | cons d l => exact endsInMark_cons (ih l r (List.cons.inj h).2) d

theorem not_standsBare_iff :
    ¬ StandsBare s ↔ isNumberLike s = true ∨ ∃ c ∈ s, isBare c = false := by
  rw [StandsBare, Classical.not_and_iff_not_or_not, Bool.not_eq_false, Bool.not_eq_true,
    List.all_eq_false]
  simp only [Bool.not_eq_true]

theorem written_iff :
    Written w ↔ StandsBare w ∨ ∃ body, w = delimit body ∧ Marked body ∧ ¬ StandsBare body := by
  simp only [Written, not_standsBare_iff]
  rw [StandsBare, and_comm]

theorem standsBare_of_mark (h : StandsBare (mark s)) : mark s = s := by
  apply mark_eq_self
  intro hm
  refine h.notMem (c := closeDelimiter) (by decide) ?_
  exact List.mem_flatMap.mpr ⟨closeDelimiter, hm, by simp⟩

theorem enclosed?_delimit (body : List Char) : enclosed? (delimit body) = some body := by
  simp [delimit, enclosed?]

theorem unwrite?_delimit (body : List Char) : unwrite? (delimit body) = some (unmark body) := by
  rw [unwrite?, if_pos (by simp [delimit]), enclosed?_delimit, Option.map_some]

theorem unwrite?_of_standsBare (h : StandsBare s) : unwrite? s = some s :=
  if_neg (h.notMem (by decide))

theorem unwrite?_write (s : List Char) : unwrite? (write s) = some s := by
  rw [write_eq]
  split
  · exact unwrite?_of_standsBare ‹_›
  · rw [unwrite?_delimit, unmark_mark]

theorem written_write (s : List Char) : Written (write s) := by
  rw [written_iff, write_eq]
  split
  · exact Or.inl ‹_›
  · rename_i h
    refine Or.inr ⟨mark s, rfl, marked_mark s, fun hm => h ?_⟩
    rwa [← standsBare_of_mark hm]

theorem Written.write_unwrite (h : Written w) : (unwrite? w).map write = some w := by
  rcases written_iff.mp h with h | ⟨body, rfl, hm, hb⟩
  · rw [unwrite?_of_standsBare h, Option.map_some, write_of_standsBare h]
  · have hu : ¬ StandsBare (unmark body) := by
      intro hu
      have hbody : unmark body = body := by
        rw [← mark_eq_self (hu.notMem (by decide)), mark_unmark hm]
      exact hb (hbody ▸ hu)
    rw [unwrite?_delimit, Option.map_some, write_eq, if_neg hu, mark_unmark hm]

/-- Every name is read back from what is written for it; what can be written are exactly the
texts described by `Written`, and each of them is what is written for the name read from it. -/
theorem unwrite_write_and_image :
    (∀ s, unwrite? (write s) = some s) ∧
      ∀ w, ((∃ s, write s = w) ↔ Written w) ∧ (Written w ↔ (unwrite? w).map write = some w) := by
  refine ⟨unwrite?_write, fun w => ⟨⟨?_, ?_⟩, Written.write_unwrite, ?_⟩⟩
  · rintro ⟨s, rfl⟩
    exact written_write s
  · intro h
    obtain ⟨s, -, hs⟩ := Option.map_eq_some_iff.mp h.write_unwrite
    exact ⟨s, hs⟩
  · intro h
    obtain ⟨s, -, rfl⟩ := Option.map_eq_some_iff.mp h
    exact written_write s

/-- Reads behind an opening delimiter up to the first closing delimiter without a mark. -/
def readBody? : List Char → Option (List Char × List Char)
  | [] => none
  | [c] => if c = closeDelimiter then some ([], []) else none
  | c :: d :: rest =>
    if c = closeDelimiter then some ([], d :: rest)
    else if c = escapeMark ∧ d = closeDelimiter then
      (readBody? rest).map fun p => (d :: p.1, p.2)
    else (readBody? (d :: rest)).map fun p => (c :: p.1, p.2)

/-- The name at the beginning of a text, and what is behind it. -/
def read? (text : List Char) : Option (List Char × List Char) :=
  if text.head? = some openDelimiter then readBody? text.tail
  else some (text.takeWhile isBare, text.dropWhile isBare)

example : read? "a⟩b:c".toList = some ("a".toList, "⟩b:c".toList) := by decide +kernel
example : read? "⟨a\\⟩b⟩:c".toList = some ("a⟩b".toList, ":c".toList) := by decide +kernel
example : read? "⟨a\\⟩:c".toList = none := by decide +kernel

theorem readBody?_close (rest : List Char) : readBody? (closeDelimiter :: rest) = some ([], rest) := by
  cases rest with
  | nil => rfl
  | cons d rest => simp [readBody?]

theorem readBody?_marked (rest : List Char) :
    readBody? (escapeMark :: closeDelimiter :: rest) =
      (readBody? rest).map fun p => (closeDelimiter :: p.1, p.2) := by
  rw [readBody?, if_neg (by decide), if_pos ⟨rfl, rfl⟩]

theorem readBody?_cons {c : Char} (hc : c ≠ closeDelimiter) (hne : rest ≠ [])
    (h : ¬ (c = escapeMark ∧ rest.head? = some closeDelimiter)) :
    readBody? (c :: rest) = (readBody? rest).map fun p => (c :: p.1, p.2) := by
  cases rest with
  | nil => exact absurd rfl hne
  | cons d rest =>
    rw [readBody?, if_neg hc, if_neg]
    simpa using h

/-- Marked text in front of another delimiter is read past. -/
theorem readBody?_mark_append (h : s.getLast? ≠ some escapeMark ∨ rest.head? ≠ some closeDelimiter)
    (hne : rest ≠ []) :
    readBody? (mark s ++ rest) = (readBody? rest).map fun p => (s ++ p.1, p.2) := by
  induction s with
  | nil => simp
  | cons c s ih =>
    have ih := ih (h.imp_left fun hs hl => hs (endsInMark_cons hl c))
    by_cases hc : c = closeDelimiter
    · subst hc
      rw [mark_close, List.cons_append, List.cons_append, readBody?_marked, ih, Option.map_map]
      rfl
    · rw [mark_other hc, List.cons_append, readBody?_cons hc (by simp [hne]) ?_, ih, Option.map_map]
      · rfl
      · rintro ⟨rfl, hhead⟩
        cases s with
        | nil => exact h.elim (fun hs => hs rfl) (fun hr => hr (by simpa using hhead))
        | cons d s =>
          obtain ⟨tail, ht⟩ := List.head?_eq_some_iff.mp hhead
          exact mark_ne_close (d :: s) rest tail (by simp) ht

theorem readBody?_of_not_endsInMark (h : s.getLast? ≠ some escapeMark) (rest : List Char) :
    readBody? (mark s ++ closeDelimiter :: rest) = some (s, rest) := by
  rw [readBody?_mark_append (Or.inl h) (by simp), readBody?_close, Option.map_some,
    List.append_nil]

/-- A backslash at the end is taken for the mark of the delimiter behind it. -/
theorem readBody?_of_endsInMark (s rest : List Char) :
    readBody? (mark (s ++ [escapeMark]) ++ closeDelimiter :: rest) =
      (readBody? rest).map fun p => (s ++ closeDelimiter :: p.1, p.2) := by
  have hm : mark [escapeMark] = [escapeMark] := rfl
  rw [mark_append, hm, List.append_assoc, List.singleton_append,
    readBody?_mark_append (Or.inr (by simp; decide)) (by simp), readBody?_marked, Option.map_map]
  rfl

theorem read?_delimited (s rest : List Char) :
    read? (openDelimiter :: (mark s ++ [closeDelimiter]) ++ rest) =
      readBody? (mark s ++ closeDelimiter :: rest) := by
  simp [read?]

theorem read?_of_standsBare (h : StandsBare s) (hb : ∀ c ∈ rest.head?, isBare c = false)
    (ho : rest.head? ≠ some openDelimiter) : read? (s ++ rest) = some (s, rest) := by
  have hs : ∀ c ∈ s, isBare c = true := List.all_eq_true.mp h.2
  have hopen : (s ++ rest).head? ≠ some openDelimiter := by
    cases s with
    | nil => exact ho
    | cons c s =>
      intro hc
      have := hs c List.mem_cons_self
      rw [Option.some.inj hc] at this
      exact absurd this (by decide)
  rw [read?, if_neg hopen, takeWhile_append_stop hs hb, dropWhile_append_stop hs hb]

/-- In front of a separator, or at the end, exactly the names that do not end in a backslash are
read back with what is behind them. -/
theorem read?_write_append_iff (h : ∀ c ∈ rest.head?, c = Literal.tableSeparator) :
    read? (write s ++ rest) = some (s, rest) ↔ s.getLast? ≠ some escapeMark := by
  by_cases hb : StandsBare s
  · have hlast : s.getLast? ≠ some escapeMark := fun hl =>
      hb.notMem (c := escapeMark) (by decide) (List.mem_of_getLast? hl)
    refine iff_of_true ?_ hlast
    rw [write_of_standsBare hb]
    refine read?_of_standsBare hb ?_ ?_
    · intro c hc
      rw [h c hc]
      rfl
    · intro ho
      exact absurd (h openDelimiter ho) (by decide)
  · rw [write_of_not_standsBare hb, read?_delimited]
    constructor
    · intro hr hl
      obtain ⟨u, rfl⟩ := List.getLast?_eq_some_iff.mp hl
      rw [readBody?_of_endsInMark] at hr
      obtain ⟨p, -, hp⟩ := Option.map_eq_some_iff.mp hr
      have hu := List.append_cancel_left (congrArg Prod.fst hp)
      exact absurd (List.cons.inj hu).1 (by decide)
    · exact fun hl => readBody?_of_not_endsInMark hl rest

theorem read?_write_append_iff_backslashes :
    (∀ c ∈ ":1".toList.head?, c = Literal.tableSeparator) ∧
      read? (write "a\\\\⟩b".toList ++ ":1".toList) = some ("a\\\\⟩b".toList, ":1".toList) ∧
      read? (write "a⟩\\".toList ++ ":1".toList) ≠ some ("a⟩\\".toList, ":1".toList) := by
  have hcolon : ∀ c ∈ ":1".toList.head?, c = Literal.tableSeparator := by
    simp [Literal.tableSeparator]
  exact ⟨hcolon, (read?_write_append_iff hcolon).mpr (by decide),
    fun h => (read?_write_append_iff hcolon).mp h (by decide)⟩

end RecordLiteral.Identifier
