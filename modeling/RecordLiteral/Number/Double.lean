import RecordLiteral.Number.Exact

/-! # Binary floating point

Doubles by their fields, so that every pattern of bits has one value. What is not a
number carries an identity, since nothing else tells two of them apart.
-/
namespace RecordLiteral

/-- Tells apart objects that look alike. -/
abbrev Ident := Nat

/-- A finite double is `(fraction + 2 ^ 52) · 2 ^ (exponent - 1075)`; exponent zero
stands for the subnormal numbers `fraction · 2 ^ (-1074)`. -/
inductive Double
  | undefined (ident : Ident)
  | infinite (negative : Bool)
  | finite (negative : Bool) (exponent : Fin 2047) (fraction : BitVec 52)
  deriving DecidableEq

namespace Double

/-- The double of 64 bits: sign, exponent and fraction from the highest bit on. -/
def ofBits (ident : Ident) (bits : BitVec 64) : Double :=
  let negative := bits.msb
  let exponent := (bits.extractLsb' 52 11).toNat
  let fraction := bits.extractLsb' 0 52
  if h : exponent < 2047 then .finite negative ⟨exponent, h⟩ fraction
  else if fraction = 0 then .infinite negative
  else .undefined ident

def toBits : Double → BitVec 64
  | .undefined _ => 0x7ff8000000000000#64
  | .infinite negative => BitVec.ofBool negative ++ 0x7ff#11 ++ 0#52
  | .finite negative exponent fraction =>
    BitVec.ofBool negative ++ BitVec.ofNat 11 exponent ++ fraction

def significand (exponent : Fin 2047) (fraction : BitVec 52) : Nat :=
  if exponent.val = 0 then fraction.toNat else (1#1 ++ fraction).toNat

def scale (exponent : Fin 2047) : Int := (max exponent.val 1 : Nat) - 1075

def quantity : Double → Quantity
  | .undefined _ => .undefined
  | .infinite negative => .infinite negative
  | .finite negative exponent fraction =>
    .exact (.ofScaled negative (significand exponent fraction) (scale exponent) 0)

def atMost (bound : Nat) : Double → Bool
  | .undefined _ => false
  | .infinite negative => negative
  | .finite negative exponent fraction =>
    negative || decide (significand exponent fraction <<< (scale exponent).toNat
      ≤ bound <<< (-scale exponent).toNat)

end Double
end RecordLiteral
