import RecordLiteral.Text.Quoted
import RecordLiteral.Uuid

/-! # Where tokens end

Numerals, quoted texts and the texts of unique identifiers, each with something behind
it. A quoted text shows by itself where it ends, and a numeral ends where no digit
follows, so each gives back what was written and the rest.
-/
namespace RecordLiteral

/-- What may stand behind a numeral. -/
def NoDigit (rest : List Char) : Prop := ∀ c ∈ rest.head?, c.isDigit = false

theorem noDigit_nil : NoDigit [] := by
  simp [NoDigit]

theorem noDigit_cons {c : Char} (h : c.isDigit = false) (rest : List Char) : NoDigit (c :: rest) := by
  simpa [NoDigit] using h

section Run
variable {p : Char → Bool} {s rest : List Char}

theorem takeWhile_append_stop (hs : ∀ c ∈ s, p c = true) (hr : ∀ c ∈ rest.head?, p c = false) :
    (s ++ rest).takeWhile p = s := by
  rw [List.takeWhile_append_of_pos hs]
  cases rest with
  | nil => simp
  | cons c rest => simp [hr c rfl]

theorem dropWhile_append_stop (hs : ∀ c ∈ s, p c = true) (hr : ∀ c ∈ rest.head?, p c = false) :
    (s ++ rest).dropWhile p = rest := by
  rw [List.dropWhile_append_of_pos hs]
  cases rest with
  | nil => rfl
  | cons c rest => simp [hr c rfl]

end Run

namespace Numeral

theorem isDigit_of_mem_natural {n : Nat} {c : Char} (h : c ∈ natural n) : c.isDigit = true :=
  Nat.isDigit_of_mem_toDigits (by decide) (by decide) h

theorem digits_append_inj {s t x y : List Char} (hs : ∀ c ∈ s, c.isDigit = true)
    (ht : ∀ c ∈ t, c.isDigit = true) (hx : NoDigit x) (hy : NoDigit y) (h : s ++ x = t ++ y) :
    s = t ∧ x = y := by
  have hst : s = t := by
    rw [← takeWhile_append_stop hs hx, h, takeWhile_append_stop ht hy]
  subst hst
  exact ⟨rfl, List.append_cancel_left h⟩

theorem natural_append_inj {m n : Nat} {x y : List Char} (hx : NoDigit x) (hy : NoDigit y)
    (h : natural m ++ x = natural n ++ y) : m = n ∧ x = y := by
  obtain ⟨hmn, hxy⟩ := digits_append_inj (fun _ => isDigit_of_mem_natural)
    (fun _ => isDigit_of_mem_natural) hx hy h
  exact ⟨natural_injective hmn, hxy⟩

theorem natural_append_ne_minus (n : Nat) (x y : List Char) : natural n ++ x ≠ '-' :: y := by
  intro h
  cases hn : natural n with
  | nil => exact Nat.toDigits_ne_nil hn
  | cons c s =>
    rw [hn, List.cons_append, List.cons.injEq] at h
    have hc : c.isDigit = true := isDigit_of_mem_natural (n := n) (by simp [hn])
    rw [h.1] at hc
    cases hc

theorem signed_append_inj {m n : Int} {x y : List Char} (hx : NoDigit x) (hy : NoDigit y)
    (h : signed m ++ x = signed n ++ y) : m = n ∧ x = y := by
  cases m with
  | ofNat m =>
    cases n with
    | ofNat n =>
      obtain ⟨rfl, hxy⟩ := natural_append_inj hx hy h
      exact ⟨rfl, hxy⟩
    | negSucc n => exact absurd h (natural_append_ne_minus _ _ _)
  | negSucc m =>
    cases n with
    | ofNat n => exact absurd h.symm (natural_append_ne_minus _ _ _)
    | negSucc n =>
      obtain ⟨hmn, hxy⟩ := natural_append_inj hx hy (List.cons.inj h).2
      obtain rfl := Nat.succ.inj hmn
      exact ⟨rfl, hxy⟩

theorem signed_injective {m n : Int} (h : signed m = signed n) : m = n :=
  (signed_append_inj noDigit_nil noDigit_nil (congrArg (· ++ []) h)).1

theorem natural_head_ne_zero {n : Nat} (h : n ≠ 0) : ∃ c digits, natural n = c :: digits ∧ c ≠ '0' := by
  induction n using Nat.strongRecOn with
  | _ n ih =>
    rw [natural, Nat.toDigits_eq_if (by decide)]
    split
    · have nonzero : ∀ d < 10, d ≠ 0 → d.digitChar ≠ '0' := by decide
      exact ⟨n.digitChar, [], rfl, nonzero n ‹_› h⟩
    · obtain ⟨c, digits, hc, hne⟩ := ih (n / 10) (by omega) (by omega)
      rw [natural] at hc
      exact ⟨c, digits ++ [(n % 10).digitChar], by rw [hc, List.cons_append], hne⟩

theorem isDigit_of_mem_leftpad {digits : List Char} {width : Nat} {c : Char}
    (hd : ∀ c ∈ digits, c.isDigit = true) (h : c ∈ digits.leftpad width '0') : c.isDigit = true := by
  rcases List.mem_append.mp h with h | h
  · rw [List.eq_of_mem_replicate h]
    rfl
  · exact hd c h

/-- Zeros in front do not count. -/
theorem ofDigitChars_leftpad (width : Nat) (digits : List Char) :
    Nat.ofDigitChars 10 (digits.leftpad width '0') 0 = Nat.ofDigitChars 10 digits 0 := by
  rw [List.leftpad, Nat.ofDigitChars_append, Nat.ofDigitChars_replicate_zero, Nat.mul_zero]

theorem readNatural?_padded (width n : Nat) : readNatural? (padded width n) = some n := by
  have digits : (padded width n).all Char.isDigit = true :=
    List.all_eq_true.mpr fun _ => isDigit_of_mem_leftpad fun _ => isDigit_of_mem_natural
  rw [readNatural?, if_pos digits, padded, ofDigitChars_leftpad, natural,
    Nat.ofDigitChars_ten_toDigits]

theorem length_padded {width n : Nat} (hw : 0 < width) (hn : n < Nat.pow 10 width) :
    (padded width n).length = width := by
  rw [padded, List.length_leftpad]
  exact Nat.max_eq_left ((Nat.length_toDigits_le_iff (by decide) hw).mpr hn)

theorem signed_head (n : Int) : ∃ c rest, signed n = c :: rest ∧ (c = '-' ∨ c.isDigit = true) := by
  cases n with
  | ofNat n =>
    cases hn : natural n with
    | nil => exact absurd hn Nat.toDigits_ne_nil
    | cons c rest => exact ⟨c, rest, hn, .inr (isDigit_of_mem_natural (n := n) (by simp [hn]))⟩
  | negSucc n => exact ⟨'-', _, rfl, .inl rfl⟩

theorem hexadecimalDigit?_digitChar {d : Nat} (h : d < 16) : hexadecimalDigit? d.digitChar = some d := by
  revert d
  decide

theorem readDigits?_append_digitChar {text : List Char} {n d : Nat} (h : d < 16)
    (hn : readDigits? 16 text = some n) :
    readDigits? 16 (text ++ [d.digitChar]) = some (16 * n + d) := by
  rw [readDigits?, List.foldlM_append]
  rw [readDigits?] at hn
  simp [hn, hexadecimalDigit?_digitChar h, h]

theorem readDigits?_toDigits (n : Nat) : readDigits? 16 (Nat.toDigits 16 n) = some n := by
  induction n using Nat.strongRecOn with
  | _ n ih =>
    rw [Nat.toDigits_eq_if (by decide)]
    split
    · rename_i h
      have single : readDigits? 16 ([] ++ [n.digitChar]) = some (16 * 0 + n) :=
        readDigits?_append_digitChar h rfl
      simpa using single
    · rename_i h
      rw [readDigits?_append_digitChar (Nat.mod_lt n (by decide)) (ih (n / 16) (by omega)),
        Nat.div_add_mod]

theorem readDigits?_hexadecimal (width n : Nat) : readDigits? 16 (hexadecimal width n) = some n := by
  have zeros : ∀ k, (List.replicate k '0').foldlM
      (fun n c => ((hexadecimalDigit? c).filter (· < 16)).map (16 * n + ·)) 0 = some 0 := by
    intro k
    induction k with
    | zero => rfl
    | succ k ih => exact ih
  rw [hexadecimal, List.leftpad, readDigits?, List.foldlM_append, zeros]
  exact readDigits?_toDigits n

theorem hexadecimal_injective {width m n : Nat} (h : hexadecimal width m = hexadecimal width n) :
    m = n :=
  Option.some.inj (by rw [← readDigits?_hexadecimal width m, h, readDigits?_hexadecimal width n])

theorem length_hexadecimal {width n : Nat} (hw : 0 < width) (hn : n < Nat.pow 16 width) :
    (hexadecimal width n).length = width := by
  rw [hexadecimal, List.length_leftpad]
  exact Nat.max_eq_left ((Nat.length_toDigits_le_iff (by decide) hw).mpr hn)

theorem mem_toDigits {n : Nat} {c : Char} (h : c ∈ Nat.toDigits 16 n) : ∃ d < 16, c = d.digitChar := by
  induction n using Nat.strongRecOn with
  | _ n ih =>
    rw [Nat.toDigits_eq_if (by decide)] at h
    split at h
    · exact ⟨n, ‹_›, List.mem_singleton.mp h⟩
    · rcases List.mem_append.mp h with h | h
      · exact ih (n / 16) (by omega) h
      · exact ⟨n % 16, Nat.mod_lt n (by decide), List.mem_singleton.mp h⟩

theorem minus_notMem_hexadecimal (width n : Nat) : '-' ∉ hexadecimal width n := by
  intro h
  rcases List.mem_append.mp h with h | h
  · exact absurd (List.eq_of_mem_replicate h) (by decide)
  · obtain ⟨d, hd, h⟩ := mem_toDigits h
    revert d
    decide

end Numeral

namespace Quoted

/-- The character that is escaped by a letter. -/
def ofLetter : Char → Char
  | 'n' => '\n'
  | 'r' => '\r'
  | 't' => '\t'
  | 'f' => '\x0c'
  | 'b' => '\x08'
  | c => c

theorem ofLetter_of_letter? {c l : Char} (h : letter? c = some l) : ofLetter l = c := by
  unfold letter? at h
  split at h <;> cases h <;> rfl

theorem letter?_ne_u {c l : Char} (h : letter? c = some l) : l ≠ 'u' := by
  unfold letter? at h
  split at h <;> cases h <;> decide

/-- How a character is written: by a letter, as it is, or by its units. -/
theorem writeChar_shape (alphabet : Alphabet) (c : Char) :
    (∃ l, letter? c = some l ∧ writeChar alphabet c = ['\\', l]) ∨
      (c ≠ '"' ∧ c ≠ '\\' ∧ isPlain alphabet c = true ∧ writeChar alphabet c = [c]) ∨
      (isPlain alphabet c = false ∧ writeChar alphabet c = (units c).flatMap unitEscape) := by
  unfold writeChar
  cases h : letter? c with
  | some l => exact .inl ⟨l, rfl, rfl⟩
  | none =>
    have hq : c ≠ '"' := by
      rintro rfl
      cases h
    have hb : c ≠ '\\' := by
      rintro rfl
      cases h
    by_cases hp : isPlain alphabet c = true
    · exact .inr (.inl ⟨hq, hb, hp, if_pos hp⟩)
    · exact .inr (.inr ⟨Bool.eq_false_iff.mpr hp, if_neg hp⟩)

theorem writeChar_cases (c : Char) :
    (∃ l, letter? c = some l ∧ writeChar .unicode c = ['\\', l]) ∨
      (c ≠ '"' ∧ c ≠ '\\' ∧ writeChar .unicode c = [c]) ∨
      (c.toNat < 0x20 ∧ writeChar .unicode c = unitEscape c.toNat) := by
  rcases writeChar_shape .unicode c with h | ⟨hq, hb, -, h⟩ | ⟨hp, h⟩
  · exact .inl h
  · exact .inr (.inl ⟨hq, hb, h⟩)
  · have hlt : c.toNat < 0x20 := by simpa [isPlain] using hp
    have hu : units c = [c.toNat] := if_pos (by omega)
    exact .inr (.inr ⟨hlt, by simp [h, hu]⟩)

theorem writeChar_ne_quote (c : Char) (x y : List Char) : writeChar .unicode c ++ x ≠ '"' :: y := by
  rcases writeChar_cases c with ⟨l, -, h⟩ | ⟨hq, -, h⟩ | ⟨-, h⟩
  · simp [h]
  · simp [h, hq]
  · simp [h, unitEscape]

theorem unitEscape_append_inj {m n : Nat} {x y : List Char} (hm : m < 0x20) (hn : n < 0x20)
    (h : unitEscape m ++ x = unitEscape n ++ y) : m = n ∧ x = y := by
  simp only [unitEscape, List.cons_append, List.cons.injEq, true_and] at h
  have hlen : ∀ {k}, k < 0x20 → (Numeral.hexadecimal 4 k).length = 4 := fun hk =>
    Numeral.length_hexadecimal (by decide) (Nat.lt_trans hk (by decide))
  obtain ⟨hmn, hxy⟩ := List.append_inj h (by rw [hlen hm, hlen hn])
  exact ⟨Numeral.hexadecimal_injective hmn, hxy⟩

theorem writeChar_append_inj {c d : Char} {x y : List Char}
    (h : writeChar .unicode c ++ x = writeChar .unicode d ++ y) : c = d ∧ x = y := by
  rcases writeChar_cases c with ⟨l, hl, hc⟩ | ⟨-, hcb, hc⟩ | ⟨hcn, hc⟩ <;>
    rcases writeChar_cases d with ⟨k, hk, hd⟩ | ⟨-, hdb, hd⟩ | ⟨hdn, hd⟩ <;> rw [hc, hd] at h
  · simp only [List.cons_append, List.nil_append, List.cons.injEq, true_and] at h
    obtain ⟨rfl, hxy⟩ := h
    exact ⟨by rw [← ofLetter_of_letter? hl, ofLetter_of_letter? hk], hxy⟩
  · exact absurd (List.cons.inj h).1.symm hdb
  · exact absurd (List.cons.inj (List.cons.inj h).2).1 (letter?_ne_u hl)
  · exact absurd (List.cons.inj h).1 hcb
  · exact List.cons.inj h
  · exact absurd (List.cons.inj h).1 hcb
  · exact absurd (List.cons.inj (List.cons.inj h).2).1.symm (letter?_ne_u hk)
  · exact absurd (List.cons.inj h).1.symm hdb
  · obtain ⟨hcd, hxy⟩ := unitEscape_append_inj hcn hdn h
    exact ⟨Char.toNat_inj.mp hcd, hxy⟩

theorem flatMap_writeChar_append_inj {s t x y : List Char}
    (h : s.flatMap (writeChar .unicode) ++ '"' :: x = t.flatMap (writeChar .unicode) ++ '"' :: y) :
    s = t ∧ x = y := by
  induction s generalizing t with
  | nil =>
    cases t with
    | nil => exact ⟨rfl, (List.cons.inj h).2⟩
    | cons d t =>
      rw [List.flatMap_cons, List.append_assoc] at h
      exact absurd h.symm (writeChar_ne_quote d _ _)
  | cons c s ih =>
    cases t with
    | nil =>
      rw [List.flatMap_cons, List.append_assoc] at h
      exact absurd h (writeChar_ne_quote c _ _)
    | cons d t =>
      rw [List.flatMap_cons, List.flatMap_cons, List.append_assoc, List.append_assoc] at h
      obtain ⟨rfl, hrest⟩ := writeChar_append_inj h
      obtain ⟨rfl, hxy⟩ := ih hrest
      exact ⟨rfl, hxy⟩

/-- A quoted text shows where it ends, whatever is in it and behind it. -/
theorem write_append_inj {s t x y : List Char}
    (h : write .unicode s ++ x = write .unicode t ++ y) : s = t ∧ x = y := by
  simp only [write, List.cons_append, List.append_assoc, List.nil_append, List.cons.injEq,
    true_and] at h
  exact flatMap_writeChar_append_inj h

end Quoted

namespace Uuid

theorem flatten_groups {sizes : List Nat} {digits : List Char}
    (h : digits.length ≤ sizes.foldr (· + ·) 0) : (groups sizes digits).flatten = digits := by
  induction sizes generalizing digits with
  | nil => simpa [groups] using h
  | cons size sizes ih =>
    have hrest : (digits.drop size).length ≤ sizes.foldr (· + ·) 0 := by
      simp only [List.foldr_cons, List.length_drop] at *
      omega
    rw [groups, List.flatten_cons, ih hrest, List.take_append_drop]

theorem mem_of_mem_groups {sizes : List Nat} {digits group : List Char}
    (h : group ∈ groups sizes digits) {c : Char} (hc : c ∈ group) : c ∈ digits := by
  induction sizes generalizing digits with
  | nil => simp [groups] at h
  | cons size sizes ih =>
    rcases List.mem_cons.mp h with rfl | h
    · exact List.mem_of_mem_take hc
    · exact List.mem_of_mem_drop (ih h)

theorem text_injective {u v : Uuid} (h : u.text = v.text) : u = v := by
  have split : ∀ w : Uuid, w.text.splitOn '-' =
      groups [8, 4, 4, 4, 12] (Numeral.hexadecimal 32 w.value.toNat) := by
    intro w
    refine List.splitOn_intercalate '-' ?_ (by simp [groups])
    intro group hg hc
    exact Numeral.minus_notMem_hexadecimal 32 _ (mem_of_mem_groups hg hc)
  have digits : ∀ w : Uuid, (w.text.splitOn '-').flatten = Numeral.hexadecimal 32 w.value.toNat := by
    intro w
    rw [split w, flatten_groups]
    rw [Numeral.length_hexadecimal (by decide) (Nat.lt_of_lt_of_le w.value.isLt (by decide))]
    decide
  have hn : u.value.toNat = v.value.toNat :=
    Numeral.hexadecimal_injective (by rw [← digits u, h, digits v])
  cases u
  cases v
  exact congrArg Uuid.mk (BitVec.eq_of_toNat_eq hn)

end Uuid
end RecordLiteral
