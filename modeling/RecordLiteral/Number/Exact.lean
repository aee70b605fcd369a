/-! # Exact numbers

Every finite number met here is a whole number times powers of two and five. Taking
all twos and fives out of the whole number leaves one representation for each value,
so numbers of different kinds are equal exactly when their representations are.
-/
namespace RecordLiteral

/-- How often `p` divides `n`, and what is left of `n` after that. -/
def takeOut (p n : Nat) : Nat × Nat :=
  if _h : 1 < p ∧ 0 < n ∧ n % p = 0 then
    let rest := takeOut p (n / p)
    (rest.1 + 1, rest.2)
  else (0, n)
termination_by n
decreasing_by exact Nat.div_lt_self _h.2.1 _h.1

theorem takeOut_mul (p n : Nat) : (takeOut p n).2 * Nat.pow p (takeOut p n).1 = n := by
  fun_induction takeOut p n with
  | case1 n h rest ih =>
    calc rest.2 * Nat.pow p (rest.1 + 1) = rest.2 * Nat.pow p rest.1 * p := (Nat.mul_assoc ..).symm
      _ = n / p * p := by rw [ih]
      _ = n := Nat.div_mul_cancel (Nat.dvd_of_mod_eq_zero h.2.2)
  | case2 n h => simp

/-- The number `± core · 2 ^ twos · 5 ^ fives`. -/
structure Exact where
  negative : Bool
  core : Nat
  twos : Int
  fives : Int
  deriving DecidableEq

namespace Exact

def zero : Exact := ⟨false, 0, 0, 0⟩

/-- The representation without twos and fives in the core; zero has no sign. -/
def ofScaled (negative : Bool) (n : Nat) (twos fives : Int) : Exact :=
  if n = 0 then zero else
    let byTwo := takeOut 2 n
    let byFive := takeOut 5 byTwo.2
    ⟨negative, byFive.2, twos + byTwo.1, fives + byFive.1⟩

def ofInt (n : Int) : Exact := ofScaled (n < 0) n.natAbs 0 0

theorem ofInt_negative (n : Int) : (ofInt n).negative = decide (n < 0) := by
  unfold ofInt ofScaled
  split
  · have hn : n = 0 := by omega
    simp [hn, zero]
  · rfl

theorem ofInt_natAbs (n : Int) : n.natAbs =
    (ofInt n).core * Nat.pow 5 (ofInt n).fives.toNat * Nat.pow 2 (ofInt n).twos.toNat := by
  unfold ofInt ofScaled
  split
  · simp [*, zero]
  · simp only [Int.zero_add, Int.toNat_natCast, takeOut_mul]

theorem ofInt_injective {m n : Int} (h : ofInt m = ofInt n) : m = n := by
  have habs : m.natAbs = n.natAbs := by rw [ofInt_natAbs m, h, ofInt_natAbs n]
  have hsign : decide (m < 0) = decide (n < 0) := by rw [← ofInt_negative, h, ofInt_negative]
  have hlt : m < 0 ↔ n < 0 := decide_eq_decide.mp hsign
  omega

end Exact

inductive Quantity
  | exact (x : Exact)
  | infinite (negative : Bool)
  | undefined
  | signaling
  deriving DecidableEq

end RecordLiteral
