import RecordLiteral.Number.Double
import RecordLiteral.Text.Numeral

/-! # Decimal floating point

A finite decimal is a signed coefficient times a power of ten. Numbers of one worth
with different exponents are kept apart, and so are the two zeros. The undefined
values carry a sign, a payload and an identity, and may be signaling: then comparing
and hashing them is refused.
-/
namespace RecordLiteral

inductive Decimal
  | finite (negative : Bool) (coefficient : Nat) (exponent : Int)
  | infinite (negative : Bool)
  | undefined (signaling negative : Bool) (payload : Nat) (ident : Ident)
  deriving DecidableEq

namespace Decimal

def quantity : Decimal → Quantity
  | .finite negative coefficient exponent =>
    .exact (.ofScaled negative coefficient exponent exponent)
  | .infinite negative => .infinite negative
  | .undefined signaling .. => if signaling then .signaling else .undefined

/-- Whether the number is at most a given whole number; undefined values have no answer. -/
def atMost? (bound : Nat) : Decimal → Option Bool
  | .undefined .. => none
  | .infinite negative => some negative
  | .finite negative coefficient exponent =>
    some <| negative || coefficient == 0 ||
      if 0 ≤ exponent then
        decide (exponent ≤ Nat.log2 bound) && decide (coefficient * Nat.pow 10 exponent.toNat ≤ bound)
      else decide (0 < bound ∧ (coefficient.log2 : Int) < -exponent)
        || decide (coefficient ≤ bound * Nat.pow 10 (-exponent).toNat)

/-- Digits with a point in front of the last `places` of them. -/
def pointed (digits : List Char) (places : Nat) : List Char :=
  let padded := digits.leftpad (places + 1) '0'
  padded.take (padded.length - places) ++ '.' :: padded.drop (padded.length - places)

def signText (negative : Bool) : List Char := if negative then ['-'] else []

/-- A finite decimal without an exponent: as many places as the exponent is negative,
and no power of ten is worked out for zero. -/
def fixedPoint (coefficient : Nat) : Int → List Char
  | .ofNat exponent =>
    Numeral.natural (if coefficient = 0 then 0 else coefficient * Nat.pow 10 exponent)
  | .negSucc places => pointed (Numeral.natural coefficient) (places + 1)

def exponentText (exponent : Int) : List Char :=
  'E' :: (if exponent < 0 then '-' else '+') :: Numeral.natural exponent.natAbs

/-- Scientific notation: plain when the exponent is not positive and the first digit
stands at most six places behind the point, else one digit in front of the point. -/
def scientific (coefficient : Nat) (exponent : Int) : List Char :=
  let digits := Numeral.natural coefficient
  let magnitude := exponent + digits.length
  if exponent ≤ 0 ∧ -6 < magnitude then
    if exponent = 0 then digits else pointed digits exponent.natAbs
  else
    (if digits.length = 1 then digits else pointed digits (digits.length - 1))
      ++ exponentText (magnitude - 1)

def text : Decimal → List Char
  | .finite negative coefficient exponent => signText negative ++ scientific coefficient exponent
  | .infinite negative => signText negative ++ "Infinity".toList
  | .undefined signaling negative payload _ =>
    signText negative ++ (if signaling then "sNaN" else "NaN").toList
      ++ (if payload = 0 then [] else Numeral.natural payload)

def readExponent? (text : List Char) : Option Int :=
  let (negative, digits) := Numeral.splitSign text
  if digits.isEmpty then none
  else (Numeral.readNatural? digits).map fun n => if negative then -n else n

/-- Digits with at most one point, and how many of them stand behind it. -/
def readCoefficient? (text : List Char) : Option (Nat × Nat) :=
  let whole := text.takeWhile (· != '.')
  let places := (text.dropWhile (· != '.')).drop 1
  if whole.isEmpty && places.isEmpty then none
  else (Numeral.readNatural? (whole ++ places)).map (·, places.length)

def readMagnitude? (negative : Bool) (ident : Ident) (text : List Char) : Option Decimal :=
  if text = "inf".toList ∨ text = "infinity".toList then some (.infinite negative)
  else match text with
  | 'n' :: 'a' :: 'n' :: payload =>
    (Numeral.readNatural? payload).map (.undefined false negative · ident)
  | 's' :: 'n' :: 'a' :: 'n' :: payload =>
    (Numeral.readNatural? payload).map (.undefined true negative · ident)
  | _ => do
    let (coefficient, places) ← readCoefficient? (text.takeWhile (· != 'e'))
    let exponent ← match text.dropWhile (· != 'e') with
      | [] => some 0
      | _ :: digits => readExponent? digits
    some (.finite negative coefficient (exponent - places))

/-- Reads a number in any notation, with the digits of any script; case, outer blanks
and underscores do not matter. -/
def ofText? (ident : Ident) (text : List Char) : Option Decimal :=
  let body := (Digit.strip Digit.isBlank text).filter (· != '_')
  let (negative, magnitude) := Numeral.splitSign (body.map fun c => (Digit.toAscii c).toLower)
  readMagnitude? negative ident magnitude

def maxExponent : Int := 999999999999999999

/-- The least exponent, that of the last place of the smallest numbers. -/
def minExponent : Int := -1999999999999999997

def isRepresentable : Decimal → Bool
  | .finite _ coefficient exponent =>
    decide (minExponent ≤ exponent) &&
      decide (exponent + (Numeral.natural coefficient).length - 1 ≤ maxExponent)
  | _ => true

end Decimal
end RecordLiteral
