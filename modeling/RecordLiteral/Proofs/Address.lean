import RecordLiteral.Value.Literal

/-! # Where the table of an address ends

A record with a text id is written as two identifiers with a colon between them. A
delimited identifier ends with a closing delimiter, and one inside it has a mark in
front. Marks are the same as the backslashes of the name itself, so the end of a name
that ends in a backslash looks like a delimiter inside a longer one. The theorems say
that this is the only way in which two addresses come to one text: the boundary moves
from behind one table to behind the other, and both tables end in a backslash.
-/
namespace RecordLiteral

namespace Identifier

def StandsBare (text : List Char) : Prop := isNumberLike text = false ∧ text.all isBare = true

instance (text : List Char) : Decidable (StandsBare text) :=
  inferInstanceAs (Decidable (_ ∧ _))

@[simp] theorem mark_nil : mark [] = [] := rfl

theorem mark_cons (c : Char) (text : List Char) :
    mark (c :: text) = (if c = closeDelimiter then [escapeMark, c] else [c]) ++ mark text := rfl

@[simp] theorem mark_close (text : List Char) :
    mark (closeDelimiter :: text) = escapeMark :: closeDelimiter :: mark text := rfl

theorem mark_other {c : Char} (h : c ≠ closeDelimiter) (text : List Char) :
    mark (c :: text) = c :: mark text := by
  simp [mark_cons, h]

@[simp] theorem mark_append (s t : List Char) : mark (s ++ t) = mark s ++ mark t :=
  List.flatMap_append

theorem isDigit_of_isLeadingDigit {c : Char} (h : isLeadingDigit c = true) : c.isDigit = true := by
  simp only [isLeadingDigit, Bool.and_eq_true] at h
  exact h.1

theorem mem_integerNumeral {text : List Char} (h : isIntegerNumeral text = true) {c : Char}
    (hc : c ∈ text) : c = '-' ∨ c.isDigit = true := by
  unfold isIntegerNumeral at h
  split at h
  · simp at hc
    exact Or.inr (by simp [hc])
  · simp only [Bool.and_eq_true, List.all_eq_true] at h
    rcases List.mem_cons.mp hc with rfl | hc
    · exact Or.inl rfl
    · rcases List.mem_cons.mp hc with rfl | hc
      · exact Or.inr (isDigit_of_isLeadingDigit h.1)
      · exact Or.inr (h.2 c hc)
  · simp only [Bool.and_eq_true, List.all_eq_true] at h
    rcases List.mem_cons.mp hc with rfl | hc
    · exact Or.inr (isDigit_of_isLeadingDigit h.1)
    · exact Or.inr (h.2 c hc)
  · simp at h

theorem close_notMem_of_isNumberLike {text : List Char} (h : isNumberLike text = true) :
    closeDelimiter ∉ text := by
  intro hc
  have hm : closeDelimiter ∈ text.erase separator :=
    (List.mem_erase_of_ne (by decide)).mpr hc
  have := mem_integerNumeral h hm
  revert this
  decide

theorem mark_eq_self {text : List Char} (h : closeDelimiter ∉ text) : mark text = text := by
  induction text with
  | nil => rfl
  | cons c text ih =>
    obtain ⟨hc, ht⟩ := List.ne_and_not_mem_of_not_mem_cons h
    rw [mark_other hc.symm, ih ht]

theorem write_eq (text : List Char) :
    write text = if StandsBare text then text else delimit (mark text) := by
  by_cases hn : isNumberLike text = true
  · simp [write, StandsBare, hn, mark_eq_self (close_notMem_of_isNumberLike hn)]
  · simp [write, StandsBare, hn]

theorem write_of_standsBare {text : List Char} (h : StandsBare text) : write text = text := by
  rw [write_eq, if_pos h]

theorem write_of_not_standsBare {text : List Char} (h : ¬ StandsBare text) :
    write text = openDelimiter :: (mark text ++ [closeDelimiter]) := by
  rw [write_eq, if_neg h]
  rfl

theorem StandsBare.notMem {text : List Char} (h : StandsBare text) {c : Char}
    (hc : isBare c = false) : c ∉ text := by
  intro hm
  have := List.all_eq_true.mp h.2 c hm
  rw [hc] at this
  cases this

theorem mark_ne_close (text rest : List Char) : ∀ tail, text ≠ [] →
    mark text ++ rest ≠ closeDelimiter :: tail := by
  intro tail hne h
  cases text with
  | nil => exact hne rfl
  | cons c text =>
    by_cases hc : c = closeDelimiter
    · subst hc
      simp only [mark_close, List.cons_append, List.cons.injEq] at h
      exact absurd h.1 (by decide)
    · simp only [mark_other hc, List.cons_append, List.cons.injEq] at h
      exact hc h.1

/-- The first text ends in a backslash, and the second goes on behind a delimiter there. -/
def Overruns (s x t y : List Char) : Prop :=
  ∃ u v, s = u ++ [escapeMark] ∧ t = u ++ closeDelimiter :: v ∧ x = mark v ++ closeDelimiter :: y

theorem Overruns.cons {s x t y : List Char} (h : Overruns s x t y) (c : Char) :
    Overruns (c :: s) x (c :: t) y := by
  obtain ⟨u, v, rfl, rfl, hx⟩ := h
  exact ⟨c :: u, v, rfl, rfl, hx⟩

theorem overruns_of_escapeMark {s x t y : List Char}
    (h : mark s ++ closeDelimiter :: x = closeDelimiter :: (mark t ++ closeDelimiter :: y)) :
    Overruns (escapeMark :: s) x (closeDelimiter :: t) y := by
  cases s with
  | nil =>
    simp only [mark_nil, List.nil_append, List.cons.injEq, true_and] at h
    exact ⟨[], t, rfl, rfl, h⟩
  | cons d s => exact absurd h (mark_ne_close (d :: s) _ _ (by simp))

/-- Marked texts that are both closed read alike when they are the same, or when one
overruns the other. -/
theorem mark_append_close_eq {s x t y : List Char}
    (h : mark s ++ closeDelimiter :: x = mark t ++ closeDelimiter :: y) :
    (s = t ∧ x = y) ∨ Overruns s x t y ∨ Overruns t y s x := by
  induction s generalizing t with
  | nil =>
    cases t with
    | nil =>
      simp only [mark_nil, List.nil_append, List.cons.injEq, true_and] at h
      exact Or.inl ⟨rfl, h⟩
    | cons d t => exact absurd h.symm (mark_ne_close (d :: t) _ _ (by simp))
  | cons c s ih =>
    cases t with
    | nil => exact absurd h (mark_ne_close (c :: s) _ _ (by simp))
    | cons d t =>
      by_cases hc : c = closeDelimiter
      · subst hc
        by_cases hd : d = closeDelimiter
        · subst hd
          simp only [mark_close, List.cons_append, List.cons.injEq, true_and] at h
          rcases ih h with ⟨rfl, rfl⟩ | h | h
          · exact Or.inl ⟨rfl, rfl⟩
          · exact Or.inr (Or.inl (h.cons _))
          · exact Or.inr (Or.inr (h.cons _))
        · simp only [mark_close, mark_other hd, List.cons_append, List.cons.injEq] at h
          obtain ⟨rfl, h⟩ := h
          exact Or.inr (Or.inr (overruns_of_escapeMark h.symm))
      · by_cases hd : d = closeDelimiter
        · subst hd
          simp only [mark_close, mark_other hc, List.cons_append, List.cons.injEq] at h
          obtain ⟨rfl, h⟩ := h
          exact Or.inr (Or.inl (overruns_of_escapeMark h))
        · simp only [mark_other hc, mark_other hd, List.cons_append, List.cons.injEq] at h
          obtain ⟨rfl, h⟩ := h
          rcases ih h with ⟨rfl, rfl⟩ | h | h
          · exact Or.inl ⟨rfl, rfl⟩
          · exact Or.inr (Or.inl (h.cons _))
          · exact Or.inr (Or.inr (h.cons _))

theorem mark_injective {s t : List Char} (h : mark s = mark t) : s = t := by
  have hc : mark s ++ closeDelimiter :: [] = mark t ++ closeDelimiter :: [] := by rw [h]
  rcases mark_append_close_eq hc with ⟨h, -⟩ | ⟨u, v, -, -, h⟩ | ⟨u, v, -, -, h⟩
  · exact h
  · simp at h
  · simp at h

theorem write_injective {s t : List Char} (h : write s = write t) : s = t := by
  by_cases hs : StandsBare s
  · rw [write_of_standsBare hs] at h
    by_cases ht : StandsBare t
    · rwa [write_of_standsBare ht] at h
    · rw [write_of_not_standsBare ht] at h
      exact absurd (h ▸ List.mem_cons_self) (hs.notMem (c := openDelimiter) (by decide))
  · rw [write_of_not_standsBare hs] at h
    by_cases ht : StandsBare t
    · rw [write_of_standsBare ht] at h
      exact absurd (h ▸ List.mem_cons_self) (ht.notMem (c := openDelimiter) (by decide))
    · rw [write_of_not_standsBare ht, List.cons.injEq] at h
      exact mark_injective (List.append_cancel_right h.2)

/-- What stands between the table and the id when both are delimited. -/
def boundary : List Char := [closeDelimiter, Literal.tableSeparator, openDelimiter]

/-- The boundary of the first address is inside the second table, and the boundary of the
second address is inside the first id. -/
def Shifted (table id table' id' : List Char) : Prop :=
  ∃ u w, table = u ++ [escapeMark] ∧ id = w ++ boundary ++ id' ∧
    table' = u ++ boundary ++ w ++ [escapeMark] ∧ ¬ StandsBare id'

def address (table id : List Char) : List Char := write table ++ Literal.tableSeparator :: write id

theorem write_eq_append_close {name l r : List Char} (h : write name = l ++ closeDelimiter :: r) :
    ¬ StandsBare name ∧ ∃ w, l = openDelimiter :: w ∧
      mark name ++ [closeDelimiter] = w ++ closeDelimiter :: r := by
  have hn : ¬ StandsBare name := by
    intro hb
    rw [write_of_standsBare hb] at h
    exact hb.notMem (c := closeDelimiter) (by decide) (by simp [h])
  refine ⟨hn, ?_⟩
  rw [write_of_not_standsBare hn] at h
  cases l with
  | nil =>
    simp only [List.nil_append, List.cons.injEq] at h
    exact absurd h.1 (by decide)
  | cons c w =>
    simp only [List.cons_append, List.cons.injEq] at h
    obtain ⟨rfl, h⟩ := h
    exact ⟨w, rfl, h⟩

theorem cons_eq_mark_append_close {c : Char} {x v r : List Char} (hc : c ≠ closeDelimiter)
    (hm : c ≠ escapeMark) (h : c :: x = mark v ++ closeDelimiter :: r) :
    ∃ v', v = c :: v' ∧ x = mark v' ++ closeDelimiter :: r := by
  cases v with
  | nil =>
    simp only [mark_nil, List.nil_append, List.cons.injEq] at h
    exact absurd h.1 hc
  | cons d v =>
    by_cases hd : d = closeDelimiter
    · subst hd
      simp only [mark_close, List.cons_append, List.cons.injEq] at h
      exact absurd h.1 hm
    · simp only [mark_other hd, List.cons_append, List.cons.injEq] at h
      exact ⟨v, by rw [h.1], h.2⟩

theorem write_eq_mark_append_close {name v r : List Char}
    (h : write name = mark v ++ closeDelimiter :: r) :
    ¬ StandsBare name ∧ ∃ w, v = openDelimiter :: w ∧
      mark name ++ [closeDelimiter] = mark w ++ closeDelimiter :: r := by
  obtain ⟨hn, l, hl, hl'⟩ := write_eq_append_close h
  have hv : openDelimiter :: (l ++ [closeDelimiter]) = mark v ++ closeDelimiter :: [] := by
    rw [hl, List.cons_append]
  obtain ⟨w, rfl, hw⟩ := cons_eq_mark_append_close (by decide) (by decide) hv
  refine ⟨hn, w, rfl, ?_⟩
  rw [hl', List.append_cancel_right hw]

theorem shifted_of_overruns {t i u j : List Char}
    (h : Overruns t (Literal.tableSeparator :: write i) u (Literal.tableSeparator :: write j)) :
    Shifted t i u j := by
  obtain ⟨a, v, rfl, rfl, hv⟩ := h
  obtain ⟨x, rfl, hx⟩ := cons_eq_mark_append_close (by decide) (by decide) hv
  obtain ⟨-, w, rfl, hw⟩ := write_eq_mark_append_close hx
  rcases mark_append_close_eq hw with ⟨-, h⟩ | ⟨b, y, -, -, h⟩ | ⟨b, y, rfl, rfl, hy⟩
  · simp at h
  · simp at h
  · obtain ⟨z, rfl, hz⟩ := cons_eq_mark_append_close (by decide) (by decide) hy
    obtain ⟨hj, s, rfl, hs⟩ := write_eq_mark_append_close hz
    obtain rfl := mark_injective (List.append_cancel_right hs)
    exact ⟨a, b, rfl, by simp [boundary], by simp [boundary], hj⟩

theorem not_standsBare_of_mem {t : List Char} {c : Char} (hc : isBare c = false) (hm : c ∈ t) :
    ¬ StandsBare t := fun h => h.notMem hc hm

theorem Shifted.address_eq {t i u j : List Char} (h : Shifted t i u j) :
    address t i = address u j := by
  obtain ⟨a, w, rfl, rfl, rfl, hj⟩ := h
  have ht := not_standsBare_of_mem (t := a ++ [escapeMark]) (c := escapeMark) (by decide)
    (by simp)
  have hi := not_standsBare_of_mem (t := w ++ boundary ++ j) (c := closeDelimiter) (by decide)
    (by simp [boundary])
  have hu := not_standsBare_of_mem (t := a ++ boundary ++ w ++ [escapeMark])
    (c := closeDelimiter) (by decide) (by simp [boundary])
  have hm : mark [escapeMark] = [escapeMark] := rfl
  have hb : mark boundary = escapeMark :: boundary := rfl
  simp only [address, write_of_not_standsBare ht, write_of_not_standsBare hi,
    write_of_not_standsBare hu, write_of_not_standsBare hj, mark_append, hm, hb]
  simp [boundary]

theorem append_separator_inj {c : Char} {s t x y : List Char} (hs : c ∉ s) (ht : c ∉ t)
    (h : s ++ c :: x = t ++ c :: y) : s = t ∧ x = y := by
  induction s generalizing t with
  | nil =>
    cases t with
    | nil => exact ⟨rfl, (List.cons.inj h).2⟩
    | cons d t => exact absurd ((List.cons.inj h).1 ▸ List.mem_cons_self) ht
  | cons d s ih =>
    cases t with
    | nil => exact absurd ((List.cons.inj h).1 ▸ List.mem_cons_self) hs
    | cons e t =>
      simp only [List.cons_append, List.cons.injEq] at h
      obtain ⟨rfl, h⟩ := h
      obtain ⟨rfl, rfl⟩ := ih (List.not_mem_of_not_mem_cons hs) (List.not_mem_of_not_mem_cons ht) h
      exact ⟨rfl, rfl⟩

theorem append_ne_open_of_standsBare {c : Char} {s x y : List Char} (hs : StandsBare s)
    (hc : c ≠ openDelimiter) : s ++ c :: x ≠ openDelimiter :: y := by
  intro h
  cases s with
  | nil => exact hc (List.cons.inj h).1
  | cons d s =>
    refine hs.notMem (c := openDelimiter) (by decide) ?_
    rw [← (List.cons.inj h).1]
    exact List.mem_cons_self

/-- Names with a separator behind them read alike when they are the same, or when one overruns
the other. -/
theorem write_append_separator_eq {c : Char} {s t x y : List Char} (hc : isBare c = false)
    (ho : c ≠ openDelimiter) (h : write s ++ c :: x = write t ++ c :: y) :
    (s = t ∧ x = y) ∨ Overruns s (c :: x) t (c :: y) ∨ Overruns t (c :: y) s (c :: x) := by
  by_cases hs : StandsBare s
  · rw [write_of_standsBare hs] at h
    by_cases ht : StandsBare t
    · rw [write_of_standsBare ht] at h
      exact Or.inl (append_separator_inj (hs.notMem hc) (ht.notMem hc) h)
    · rw [write_of_not_standsBare ht] at h
      exact absurd h (append_ne_open_of_standsBare hs ho)
  · rw [write_of_not_standsBare hs] at h
    by_cases ht : StandsBare t
    · rw [write_of_standsBare ht] at h
      exact absurd h.symm (append_ne_open_of_standsBare ht ho)
    · rw [write_of_not_standsBare ht] at h
      simp only [List.cons_append, List.append_assoc, List.nil_append, List.cons.injEq,
        true_and] at h
      rcases mark_append_close_eq h with ⟨hst, hxy⟩ | h | h
      · exact Or.inl ⟨hst, (List.cons.inj hxy).2⟩
      · exact Or.inr (Or.inl h)
      · exact Or.inr (Or.inr h)

theorem address_eq_iff {t i u j : List Char} :
    address t i = address u j ↔ (t = u ∧ i = j) ∨ Shifted t i u j ∨ Shifted u j t i := by
  constructor
  · intro h
    rcases write_append_separator_eq (by decide) (by decide) h with ⟨htu, hw⟩ | h | h
    · exact Or.inl ⟨htu, write_injective hw⟩
    · exact Or.inr (Or.inl (shifted_of_overruns h))
    · exact Or.inr (Or.inr (shifted_of_overruns h))
  · rintro (⟨rfl, rfl⟩ | h | h)
    · rfl
    · exact h.address_eq
    · exact h.address_eq.symm

end Identifier

namespace Value

theorem display_text_record (t i : String) :
    (Value.record t (.leaf (.text i))).display = Identifier.address t.toList i.toList := rfl

/-- Records with text ids are displayed alike when they are the same, and otherwise just
when the boundary of one is shifted into the other; then both tables end in a backslash. -/
theorem display_text_record_eq_iff {t u i j : String} :
    (Value.record t (.leaf (.text i))).display = (Value.record u (.leaf (.text j))).display ↔
      (t = u ∧ i = j) ∨ Identifier.Shifted t.toList i.toList u.toList j.toList ∨
        Identifier.Shifted u.toList j.toList t.toList i.toList := by
  simp only [display_text_record, Identifier.address_eq_iff, String.toList_inj]

theorem display_text_record_shifted :
    (Value.record "a\\" (.leaf (.text "b ⟩:⟨c d"))).display =
        (Value.record "a⟩:⟨b \\" (.leaf (.text "c d"))).display ∧
      "a\\" ≠ "a⟩:⟨b \\" := by
  decide +kernel

end Value
end RecordLiteral
