import RecordLiteral.Fault
import RecordLiteral.Leaf.Debug

/-! # Leaves from text and fields

Numbers and identifiers are read from text, dates and moments are put together from
their fields. What does not fit is told by a fault, the first of them where there are
several.
-/
namespace RecordLiteral

def Date.check (year month day : Int) : Except Fault Date :=
  if ¬(1 ≤ year ∧ year ≤ 9999) then .error (.badYear year)
  else if ¬(1 ≤ month ∧ month ≤ 12) then .error .badMonth
  else match Date.ofFields? year.toNat month.toNat day.toNat with
    | some d => .ok d
    | none => .error .badDay

def Offset.check (micros : Int) : Except Fault Offset :=
  match Offset.ofMicros? micros with
  | some offset => .ok offset
  | none => .error (.badOffset (String.ofList (Offset.durationText micros)))

namespace DateTime

def checkField (unit : String) (bound : Nat) (n : Int) : Except Fault (Fin bound) :=
  if h : 0 ≤ n ∧ n < bound then .ok ⟨n.toNat, by omega⟩ else .error (.badClock unit bound)

/-- The offset is looked at first, then the fields from the year down. -/
def check (year month day hour minute second micro : Int) (offset : Option Int) :
    Except Fault DateTime := do
  let offset ← offset.mapM Offset.check
  let date ← Date.check year month day
  return ⟨date, ← checkField "hour" 24 hour, ← checkField "minute" 60 minute,
    ← checkField "second" 60 second, ← checkField "microsecond" 1000000 micro, offset⟩

end DateTime

namespace Leaf

def integerOfText (text : String) : Except Fault Leaf :=
  match Numeral.readInteger? 10 text.toList with
  | some n => .ok (.int n)
  | none => .error (.malformedInteger 10 text)

/-- An undefined number gets its identity when it becomes an object. -/
def decimalOfText (text : String) : Except Fault Leaf :=
  match Decimal.ofText? 0 text.toList with
  | some x => if x.isRepresentable then .ok (.decimal x) else .error .decimalOutOfBounds
  | none => .error .malformedDecimal

/-- An identifier is read as a number of 32 digits, in every notation of such numbers. -/
def uuidOfText (text : String) : Except Fault Leaf :=
  let body := Uuid.bareText text.toList
  if body.length = 32 then
    match Numeral.readInteger? 16 body with
    | some n => .ok (.uuid (.ofNat n.toNat))
    | none => .error (.malformedInteger 16 (String.ofList body))
  else .error .malformedUuid

end Leaf
end RecordLiteral
