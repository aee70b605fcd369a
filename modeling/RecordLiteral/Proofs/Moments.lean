import RecordLiteral.Proofs.Form
import RecordLiteral.Proofs.Quotation
import RecordLiteral.Value.Literal

/-! # Reading moments

Every part of the text of a moment has a certain number of digits, and all but the first
stand behind a mark, so that a part that was left out is known by the mark of another one
in its place, or by the end of the text. So the clock and the offset are read back from
every literal, and with them the instant.
-/
namespace RecordLiteral

theorem Date.day_le (d : Date) : d.day ≤ 31 := by
  refine Nat.le_trans d.day_mem.2 ?_
  unfold daysInMonth
  split_ifs <;> decide

theorem Offset.eq_of_micros_eq {o p : Offset} (h : o.micros = p.micros) : o = p := by
  cases o
  cases p
  cases h
  rfl

theorem Offset.head?_text_ne (o : Offset) : o.text.head? ≠ some '.' := by
  rw [text, List.head?_cons]
  split <;> simp

namespace DateTime

/-- How far a clock is ahead of universal time, which it is taken to show where nothing is said. -/
def ahead (t : DateTime) : Int := (t.offset.map Offset.micros).getD 0

theorem ahead_eq {t : DateTime} {o : Offset} (h : t.offset = some o) : t.ahead = o.micros := by
  rw [ahead, h, Option.map_some, Option.getD_some]

theorem ahead_assumeUtc (t : DateTime) : t.assumeUtc.ahead = t.ahead := by
  rw [ahead, ahead, assumeUtc]
  cases t.offset <;> rfl

theorem wallMicros_midnight (d : Date) : (midnight d).wallMicros = d.ordinal * 86400000000 := by
  simp only [wallMicros, midnight, Fin.val_zero]
  omega

end DateTime

/-- What a clock on the wall shows, and by how many microseconds it is ahead of universal time. -/
structure WallClock where
  year : Nat
  month : Nat
  day : Nat
  hour : Nat
  minute : Nat
  second : Nat
  micro : Nat
  offset : Int
  deriving DecidableEq

namespace WallClock

/-- A number of so many digits, and what is behind it. -/
def digits? (width : Nat) (text : List Char) : Option (Nat × List Char) :=
  if width ≤ text.length then
    (Numeral.readNatural? (text.take width)).map fun n => (n, text.drop width)
  else none

/-- What is behind a mark. -/
def behind? (mark : Char) : List Char → Option (List Char)
  | c :: rest => if c = mark then some rest else none
  | [] => none

/-- A number of so many digits behind a mark. -/
def part? (mark : Char) (width : Nat) (text : List Char) : Option (Nat × List Char) :=
  (behind? mark text).bind (digits? width)

/-- A part that counts as zero where it is left out. -/
def fine? (mark : Char) (width : Nat) (text : List Char) : Option (Nat × List Char) :=
  match behind? mark text with
  | some rest => digits? width rest
  | none => some (0, text)

def date? (text : List Char) : Option ((Nat × Nat × Nat) × List Char) := do
  let (year, rest) ← digits? 4 text
  let (month, rest) ← part? '-' 2 rest
  let (day, rest) ← part? '-' 2 rest
  some ((year, month, day), rest)

def clock? (text : List Char) : Option ((Nat × Nat × Nat × Nat) × List Char) := do
  let (hour, rest) ← digits? 2 text
  let (minute, rest) ← part? ':' 2 rest
  let (second, rest) ← part? ':' 2 rest
  let (micro, rest) ← fine? '.' 6 rest
  some ((hour, minute, second, micro), rest)

/-- Whether the sign at the beginning of a text is a minus. -/
def sign? : List Char → Option (Bool × List Char)
  | '-' :: rest => some (true, rest)
  | '+' :: rest => some (false, rest)
  | _ => none

/-- Hours and minutes, and what is finer, as microseconds. -/
def size? (text : List Char) : Option (Nat × List Char) := do
  let (hours, rest) ← digits? 2 text
  let (minutes, rest) ← part? ':' 2 rest
  let (seconds, rest) ← fine? ':' 2 rest
  let (micros, rest) ← fine? '.' 6 rest
  some (((hours * 60 + minutes) * 60 + seconds) * 1000000 + micros, rest)

def offset? (text : List Char) : Option (Int × List Char) := do
  let (negative, rest) ← sign? text
  let (size, rest) ← size? rest
  some (if negative then -size else size, rest)

def ofText? (text : List Char) : Option WallClock := do
  let ((year, month, day), rest) ← date? text
  let rest ← behind? 'T' rest
  let ((hour, minute, second, micro), rest) ← clock? rest
  let (offset, rest) ← offset? rest
  if rest.isEmpty then some ⟨year, month, day, hour, minute, second, micro, offset⟩ else none

/-- Reads the literal of a moment: text in quotes behind its mark. -/
def read? (literal : List Char) : Option WallClock := do
  let quoted ← behind? Literal.datetimeMark literal
  let (text, rest) ← Quoted.read? quoted
  if rest.isEmpty then ofText? text else none

section Parts
variable (width : Nat) {n : Nat} {mark : Char}

theorem digits?_padded (hw : 0 < width) (hn : n < Nat.pow 10 width) (rest : List Char) :
    digits? width (Numeral.padded width n ++ rest) = some (n, rest) := by
  have hlen := Numeral.length_padded hw hn
  rw [digits?, if_pos (by rw [List.length_append]; omega), List.take_left' hlen,
    List.drop_left' hlen, Numeral.readNatural?_padded, Option.map_some]

theorem behind?_cons (mark : Char) (rest : List Char) : behind? mark (mark :: rest) = some rest :=
  if_pos rfl

theorem behind?_eq_none {text : List Char} (h : text.head? ≠ some mark) :
    behind? mark text = none := by
  cases text with
  | nil => rfl
  | cons c rest => exact if_neg fun hc => h (congrArg some hc)

theorem part?_padded (hw : 0 < width) (hn : n < Nat.pow 10 width) (rest : List Char) :
    part? mark width (mark :: (Numeral.padded width n ++ rest)) = some (n, rest) := by
  rw [part?, behind?_cons, Option.bind_some, digits?_padded width hw hn]

/-- A part may be left out when it is zero and its mark does not come behind it. -/
theorem fine?_padded {p : Prop} [Decidable p] (hp : p → n = 0) (hw : 0 < width)
    (hn : n < Nat.pow 10 width) {rest : List Char} (hr : rest.head? ≠ some mark) :
    fine? mark width ((if p then [] else mark :: Numeral.padded width n) ++ rest) =
      some (n, rest) := by
  split
  · rw [List.nil_append, fine?, behind?_eq_none hr, hp ‹_›]
  · rw [List.cons_append, fine?, behind?_cons]
    exact digits?_padded width hw hn rest

end Parts

theorem date?_text (d : Date) (rest : List Char) :
    date? (d.text ++ rest) = some ((d.year, d.month, d.day), rest) := by
  have hyear : d.year < 10000 := Nat.lt_succ_of_le d.year_mem.2
  have hmonth : d.month < 100 := Nat.lt_of_le_of_lt d.month_mem.2 (by decide)
  have hday : d.day < 100 := Nat.lt_of_le_of_lt d.day_le (by decide)
  simp only [date?, Date.text, List.append_assoc, List.cons_append,
    digits?_padded 4 (by decide) hyear, part?_padded 2 (by decide) hmonth,
    part?_padded 2 (by decide) hday, Option.bind_eq_bind, Option.bind_some]

theorem clock?_text (t : DateTime) {rest : List Char} (hr : rest.head? ≠ some '.') :
    clock? (t.clockText ++ rest) =
      some ((t.hour.val, t.minute.val, t.second.val, t.micro.val), rest) := by
  have hhour : t.hour.val < 100 := Nat.lt_trans t.hour.isLt (by decide)
  have hminute : t.minute.val < 100 := Nat.lt_trans t.minute.isLt (by decide)
  have hsecond : t.second.val < 100 := Nat.lt_trans t.second.isLt (by decide)
  have hmicro := fine?_padded 6 (fun h : t.micro.val = 0 => h) (by decide) t.micro.isLt hr
  simp only [clock?, DateTime.clockText, List.append_assoc, List.cons_append,
    digits?_padded 2 (by decide) hhour, part?_padded 2 (by decide) hminute,
    part?_padded 2 (by decide) hsecond, hmicro, Option.bind_eq_bind, Option.bind_some]

/-- Behind the minutes stand the seconds, unless they and all that is finer are zero. -/
theorem fine?_fineText (size : Nat) :
    fine? ':' 2 (Offset.fineText size) = some (size / 1000000 % 60,
      if size % 1000000 = 0 then [] else '.' :: Numeral.padded 6 (size % 1000000)) := by
  refine fine?_padded 2 And.left (by decide) (by change _ < 100; omega) ?_
  split <;> simp

theorem size?_text {size : Nat} (h : size < 86400000000) :
    size? (Numeral.padded 2 (size / 3600000000) ++ ':' :: Numeral.padded 2 (size / 60000000 % 60)
      ++ Offset.fineText size) = some (size, []) := by
  have hhours : size / 3600000000 < 100 := by omega
  have hminutes : size / 60000000 % 60 < 100 := by omega
  have hmicros : fine? '.' 6 ((if size % 1000000 = 0 then [] else
      '.' :: Numeral.padded 6 (size % 1000000)) ++ []) = some (size % 1000000, []) :=
    fine?_padded 6 id (by decide) (Nat.mod_lt _ (by decide)) (by simp)
  rw [List.append_nil] at hmicros
  have hsize : ((size / 3600000000 * 60 + size / 60000000 % 60) * 60 + size / 1000000 % 60) *
      1000000 + size % 1000000 = size := by omega
  simp only [size?, List.append_assoc, List.cons_append, digits?_padded 2 (by decide) hhours,
    part?_padded 2 (by decide) hminutes, fine?_fineText, hmicros, hsize, Option.bind_eq_bind,
    Option.bind_some]

theorem sign?_cons {p : Prop} [Decidable p] (rest : List Char) :
    sign? ((if p then '-' else '+') :: rest) = some (decide p, rest) := by
  by_cases h : p
  · rw [if_pos h, decide_eq_true h]
    rfl
  · rw [if_neg h, decide_eq_false h]
    rfl

theorem offset?_text (o : Offset) : offset? o.text = some (o.micros, []) := by
  obtain ⟨micros, hlow, hhigh⟩ := o
  have hsize := size?_text (show micros.natAbs < 86400000000 by omega)
  have hmicros : (if micros < 0 then -(micros.natAbs : Int) else micros.natAbs) = micros := by
    split <;> omega
  simp only [offset?, Offset.text, sign?_cons, hsize, decide_eq_true_eq, hmicros,
    Option.bind_eq_bind, Option.bind_some]

end WallClock

/-- A date with a time of day, or a date alone. -/
inductive Moment
  | datetime (t : DateTime)
  | date (d : Date)

namespace Moment

open WallClock

variable {m n : Moment}

def value : Moment → Value
  | .datetime t => .leaf (.datetime t)
  | .date d => .leaf (.date d)

/-- A moment without offset is read in universal time, and a date as midnight there. -/
def wallClock : Moment → WallClock
  | .datetime t =>
    ⟨t.date.year, t.date.month, t.date.day, t.hour, t.minute, t.second, t.micro, t.ahead⟩
  | .date d => ⟨d.year, d.month, d.day, 0, 0, 0, 0, 0⟩

/-- Microseconds in universal time. -/
def instant : Moment → Int
  | .datetime t => t.wallMicros - t.ahead
  | .date d => d.ordinal * 86400000000

/-- The moment with the offset that is taken for it. -/
def aware : Moment → DateTime
  | .datetime t => t.assumeUtc
  | .date d => .midnight d

theorem literal_value (m : Moment) :
    m.value.literal = Literal.quoted Literal.datetimeMark (m.aware.text 'T') := by
  cases m <;> rfl

theorem exists_offset_aware (m : Moment) : ∃ o, m.aware.offset = some o := by
  cases m <;> exact ⟨_, rfl⟩

theorem wallClock_aware (m : Moment) : (datetime m.aware).wallClock = m.wallClock := by
  cases m with
  | datetime t =>
    rw [aware, wallClock, DateTime.ahead_assumeUtc]
    rfl
  | date d => rfl

theorem instant_aware (m : Moment) : (datetime m.aware).instant = m.instant := by
  cases m with
  | datetime t =>
    rw [aware, instant, DateTime.ahead_assumeUtc]
    rfl
  | date d => exact (Int.sub_zero _).trans (DateTime.wallMicros_midnight d)

theorem ofText?_text {t : DateTime} {o : Offset} (h : t.offset = some o) :
    ofText? (t.text 'T') = some (datetime t).wallClock := by
  simp only [ofText?, DateTime.text, h, Option.map_some, Option.getD_some, date?_text, behind?_cons,
    clock?_text t o.head?_text_ne, offset?_text, Option.bind_eq_bind, Option.bind_some,
    List.isEmpty_nil, if_true, wallClock, DateTime.ahead_eq h]

theorem read?_literal (m : Moment) : read? m.value.literal = some m.wallClock := by
  obtain ⟨o, ho⟩ := exists_offset_aware m
  have hquoted : Quoted.read? (Quoted.write .unicode (m.aware.text 'T')) =
      some (m.aware.text 'T', []) := by rw [← Quoted.read?_write .unicode, List.append_nil]
  simp only [literal_value, Literal.quoted, read?, behind?_cons, hquoted, Option.bind_eq_bind,
    Option.bind_some, List.isEmpty_nil, if_true, ofText?_text ho, wallClock_aware]

theorem eq_of_wallClock_eq {t u : DateTime} {o p : Offset} (ht : t.offset = some o)
    (hu : u.offset = some p) (h : (datetime t).wallClock = (datetime u).wallClock) : t = u := by
  obtain ⟨⟨year, month, day, _, _, _⟩, hour, minute, second, micro, offset⟩ := t
  obtain ⟨⟨year', month', day', _, _, _⟩, hour', minute', second', micro', offset'⟩ := u
  obtain rfl : offset = some o := ht
  obtain rfl : offset' = some p := hu
  simp only [wallClock, WallClock.mk.injEq, Fin.val_inj] at h
  obtain ⟨rfl, rfl, rfl, rfl, rfl, rfl, rfl, hahead⟩ := h
  obtain rfl : o = p := Offset.eq_of_micros_eq hahead
  rfl

theorem aware_eq_of_wallClock_eq (h : m.wallClock = n.wallClock) : m.aware = n.aware := by
  rw [← wallClock_aware m, ← wallClock_aware n] at h
  obtain ⟨o, hm⟩ := exists_offset_aware m
  obtain ⟨p, hn⟩ := exists_offset_aware n
  exact eq_of_wallClock_eq hm hn h

/-- What is written for a moment is written for those that the clock shows alike, and no others. -/
theorem literal_eq_iff_wallClock_eq :
    m.value.literal = n.value.literal ↔ m.wallClock = n.wallClock := by
  constructor
  · intro h
    exact Option.some.inj (by rw [← read?_literal m, h, read?_literal n])
  · intro h
    rw [literal_value, literal_value, aware_eq_of_wallClock_eq h]

/-- The instant is what the comparison of two moments with offsets goes by. -/
theorem plainEquals_aware_iff :
    (datetime m.aware).value.plainEquals (datetime n.aware).value = .equal ↔
      m.instant = n.instant := by
  obtain ⟨o, hm⟩ := exists_offset_aware m
  obtain ⟨p, hn⟩ := exists_offset_aware n
  rw [← instant_aware m, ← instant_aware n]
  simp only [value, Value.plainEquals, Leaf.plainEquals_eq_equal, Leaf.isUndefined,
    Leaf.undefinedIdent?, Leaf.key, Leaf.datetimeKey, hm, hn, instant, DateTime.ahead_eq hm,
    DateTime.ahead_eq hn, Option.isSome_none, Leaf.Key.instant.injEq, true_and]

/-- From the literal of a moment all that the clock shows and the offset are read back, so that
literals are equal exactly when these are, and then the moments are one instant. -/
theorem literal_keeps_wallClock_and_instant :
    (∀ m : Moment, read? m.value.literal = some m.wallClock) ∧
      (∀ m n : Moment, m.value.literal = n.value.literal ↔ m.wallClock = n.wallClock) ∧
      ∀ m n : Moment, m.value.literal = n.value.literal → m.instant = n.instant ∧
        (datetime m.aware).value.plainEquals (datetime n.aware).value = .equal := by
  refine ⟨read?_literal, fun _ _ => literal_eq_iff_wallClock_eq, fun m n h => ?_⟩
  have hinstant : m.instant = n.instant := by
    rw [← instant_aware m, ← instant_aware n,
      aware_eq_of_wallClock_eq (literal_eq_iff_wallClock_eq.mp h)]
  exact ⟨hinstant, plainEquals_aware_iff.mpr hinstant⟩

theorem literal_keeps_wallClock_and_instant_midnight :
    let day := Date.mk 2024 1 2 (by decide) (by decide) (by decide)
    let shifted := DateTime.mk day 23 59 59 5 (some ⟨-1, by decide⟩)
    (date day).value.literal = (datetime ⟨day, 0, 0, 0, 0, none⟩).value.literal ∧
      (date day).instant = (datetime ⟨day, 0, 0, 0, 0, none⟩).instant ∧
      (datetime shifted).value.literal = "d\"2024-01-02T23:59:59.000005-00:00:00.000001\"".toList ∧
      read? (datetime shifted).value.literal = some ⟨2024, 1, 2, 23, 59, 59, 5, -1⟩ := by
  intro day shifted
  have hmidnight : (date day).value.literal =
      (datetime ⟨day, 0, 0, 0, 0, none⟩).value.literal := rfl
  exact ⟨hmidnight, (literal_keeps_wallClock_and_instant.2.2 _ _ hmidnight).1, by decide +kernel,
    literal_keeps_wallClock_and_instant.1 (datetime shifted)⟩

end Moment

end RecordLiteral
