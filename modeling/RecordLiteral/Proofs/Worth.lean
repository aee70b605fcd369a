import Mathlib.Algebra.Order.Field.Power
import Mathlib.NumberTheory.Padics.PadicVal.Basic
import RecordLiteral.Proofs.Form

/-! # What finite numbers are worth

The exact representation of a number stands for a rational. With all twos and fives taken
out of the core it is the only one of its worth, so that finite numbers are equal exactly
when they are worth the same.
-/
namespace RecordLiteral

theorem not_dvd_takeOut {p n : Nat} (hp : 1 < p) (hn : 0 < n) : ¬ p ∣ (takeOut p n).2 := by
  fun_induction takeOut p n with
  | case1 n h rest ih =>
    have hdvd : p ∣ n := Nat.dvd_of_mod_eq_zero h.2.2
    exact ih (Nat.div_pos (Nat.le_of_dvd hn hdvd) (Nat.zero_lt_of_lt hp))
  | case2 n h =>
    intro hdvd
    exact h ⟨hp, hn, Nat.mod_eq_zero_of_dvd hdvd⟩

theorem takeOut_dvd (p n : Nat) : (takeOut p n).2 ∣ n := ⟨_, (takeOut_mul p n).symm⟩

def withSign (negative : Bool) (q : ℚ) : ℚ := if negative then -q else q

theorem withSign_inj {a b : Bool} {q r : ℚ} (hq : 0 < q) (hr : 0 < r)
    (h : withSign a q = withSign b r) : a = b ∧ q = r := by
  cases a <;> cases b <;> simp [withSign] at h ⊢ <;> linarith

namespace Exact

variable {x y : Exact}

def magnitude (x : Exact) : ℚ := x.core * 2 ^ x.twos * 5 ^ x.fives

def worth (x : Exact) : ℚ := withSign x.negative x.magnitude

/-- Nothing can be taken out of the core, unless the number is zero. -/
def Normal (x : Exact) : Prop := x = zero ∨ (¬ 2 ∣ x.core ∧ ¬ 5 ∣ x.core)

theorem normal_ofScaled (negative : Bool) (n : Nat) (twos fives : Int) :
    (ofScaled negative n twos fives).Normal := by
  unfold ofScaled
  split
  · exact Or.inl rfl
  · have htwo : ¬ 2 ∣ (takeOut 2 n).2 := not_dvd_takeOut (by decide) (Nat.pos_of_ne_zero ‹_›)
    have hpos : 0 < (takeOut 2 n).2 := Nat.pos_of_ne_zero fun h => htwo (h ▸ Nat.dvd_zero 2)
    exact Or.inr ⟨fun h => htwo (h.trans (takeOut_dvd 5 _)), not_dvd_takeOut (by decide) hpos⟩

theorem worth_ofScaled (negative : Bool) (n : Nat) (twos fives : Int) :
    (ofScaled negative n twos fives).worth = withSign negative (n * 2 ^ twos * 5 ^ fives) := by
  unfold ofScaled
  split
  · rename_i hn
    subst hn
    simp [worth, magnitude, zero, withSign]
  · have hfive : (takeOut 5 (takeOut 2 n).2).2 * 5 ^ (takeOut 5 (takeOut 2 n).2).1 =
        (takeOut 2 n).2 := takeOut_mul 5 _
    have htwo : (takeOut 2 n).2 * 2 ^ (takeOut 2 n).1 = n := takeOut_mul 2 n
    have hn : (n : ℚ) = (takeOut 5 (takeOut 2 n).2).2 * 5 ^ (takeOut 5 (takeOut 2 n).2).1 *
        2 ^ (takeOut 2 n).1 := by exact_mod_cast (hfive.symm ▸ htwo).symm
    simp only [worth, magnitude, zpow_add₀ (show (2 : ℚ) ≠ 0 by norm_num),
      zpow_add₀ (show (5 : ℚ) ≠ 0 by norm_num), zpow_natCast, hn]
    congr 1
    ring

theorem magnitude_pos (h : ¬ 2 ∣ x.core) : 0 < x.magnitude := by
  have hcore : 0 < x.core := Nat.pos_of_ne_zero fun hz => h (hz ▸ Nat.dvd_zero 2)
  unfold magnitude
  positivity

theorem worth_zero : zero.worth = 0 := by
  simp [worth, magnitude, zero, withSign]

theorem worth_ne_zero (h : ¬ 2 ∣ x.core) : x.worth ≠ 0 := by
  have hpos := magnitude_pos h
  unfold worth withSign
  split
  · exact neg_ne_zero.mpr hpos.ne'
  · exact hpos.ne'

/-- The valuation of a scaled number is that of its scale, where the whole part has none. -/
theorem padicValRat_scaled {p q m : Nat} (hp : p.Prime) (hq : q.Prime) (hpq : p ≠ q)
    (hm : ¬ p ∣ m) (a b : Int) : padicValRat p (m * (p : ℚ) ^ a * (q : ℚ) ^ b) = a := by
  have := Fact.mk hp
  have := Fact.mk hq
  have hm' : (m : ℚ) ≠ 0 := Nat.cast_ne_zero.mpr fun h => hm (h ▸ Nat.dvd_zero p)
  have hp' : (p : ℚ) ^ a ≠ 0 := zpow_ne_zero a (Nat.cast_ne_zero.mpr hp.ne_zero)
  have hq' : (q : ℚ) ^ b ≠ 0 := zpow_ne_zero b (Nat.cast_ne_zero.mpr hq.ne_zero)
  rw [padicValRat.mul (mul_ne_zero hm' hp') hq', padicValRat.mul hm' hp', padicValRat.zpow,
    padicValRat.zpow, padicValRat.self hp.one_lt, ← padicValRat_of_nat, ← padicValRat_of_nat,
    padicValNat.eq_zero_of_not_dvd hm, padicValNat_primes hpq]
  simp

theorem padicValRat_two (h : ¬ 2 ∣ x.core) : padicValRat 2 x.magnitude = x.twos := by
  exact_mod_cast padicValRat_scaled Nat.prime_two Nat.prime_five (by decide) h x.twos x.fives

theorem padicValRat_five (h : ¬ 5 ∣ x.core) : padicValRat 5 x.magnitude = x.fives := by
  rw [magnitude, mul_right_comm]
  exact_mod_cast padicValRat_scaled Nat.prime_five Nat.prime_two (by decide) h x.fives x.twos

theorem eq_of_magnitude_eq (hx : ¬ 2 ∣ x.core ∧ ¬ 5 ∣ x.core) (hy : ¬ 2 ∣ y.core ∧ ¬ 5 ∣ y.core)
    (hs : x.negative = y.negative) (h : x.magnitude = y.magnitude) : x = y := by
  have htwos : x.twos = y.twos := by rw [← padicValRat_two hx.1, h, padicValRat_two hy.1]
  have hfives : x.fives = y.fives := by rw [← padicValRat_five hx.2, h, padicValRat_five hy.2]
  have hcore : x.core = y.core := by
    rw [magnitude, magnitude, htwos, hfives] at h
    have hscaled := mul_right_cancel₀ (by positivity) h
    exact Nat.cast_injective (mul_right_cancel₀ (by positivity) hscaled)
  cases x
  cases y
  rw [mk.injEq]
  exact ⟨hs, hcore, htwos, hfives⟩

/-- There is one representation of each worth. -/
theorem Normal.eq_of_worth_eq (hx : x.Normal) (hy : y.Normal) (h : x.worth = y.worth) : x = y := by
  rcases hx with rfl | hx
  · rcases hy with rfl | hy
    · rfl
    · exact absurd (h.symm.trans worth_zero) (worth_ne_zero hy.1)
  · rcases hy with rfl | hy
    · exact absurd (h.trans worth_zero) (worth_ne_zero hx.1)
    · obtain ⟨hs, hm⟩ := withSign_inj (magnitude_pos hx.1) (magnitude_pos hy.1) h
      exact eq_of_magnitude_eq hx hy hs hm

theorem ofScaled_eq_iff {a b : Bool} {m n : Nat} {c d e f : Int} :
    ofScaled a m c d = ofScaled b n e f ↔
      withSign a (m * 2 ^ c * 5 ^ d) = withSign b (n * 2 ^ e * 5 ^ f) := by
  rw [← worth_ofScaled, ← worth_ofScaled]
  exact ⟨congrArg worth, (normal_ofScaled a m c d).eq_of_worth_eq (normal_ofScaled b n e f)⟩

end Exact

end RecordLiteral
