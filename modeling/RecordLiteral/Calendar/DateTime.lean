import RecordLiteral.Calendar.Date

/-! # Moments

A wall-clock reading to the microsecond, with or without an offset from universal
time. Its text leaves out microseconds, and in the offset also seconds, when they and
all finer parts are zero.
-/
namespace RecordLiteral

/-- Microseconds east of universal time, less than a day either way. -/
structure Offset where
  micros : Int
  micros_mem : -86400000000 < micros ∧ micros < 86400000000
  deriving DecidableEq

structure DateTime where
  date : Date
  hour : Fin 24
  minute : Fin 60
  second : Fin 60
  micro : Fin 1000000
  offset : Option Offset
  deriving DecidableEq

namespace Offset

def utc : Offset := ⟨0, by decide⟩

def ofMicros? (micros : Int) : Option Offset :=
  if h : -86400000000 < micros ∧ micros < 86400000000 then some ⟨micros, h⟩ else none

/-- The part of the text after the minutes, for a size in microseconds. -/
def fineText (size : Nat) : List Char :=
  let seconds := size / 1000000 % 60
  let micros := size % 1000000
  (if seconds = 0 ∧ micros = 0 then [] else ':' :: Numeral.padded 2 seconds)
    ++ (if micros = 0 then [] else '.' :: Numeral.padded 6 micros)

def text (o : Offset) : List Char :=
  let size := o.micros.natAbs
  (if o.micros < 0 then '-' else '+')
    :: (Numeral.padded 2 (size / 3600000000) ++ ':' :: Numeral.padded 2 (size / 60000000 % 60)
      ++ fineText size)

end Offset

namespace DateTime

def midnight (date : Date) : DateTime := ⟨date, 0, 0, 0, 0, some .utc⟩

/-- A reading without offset is taken to be in universal time. -/
def assumeUtc (t : DateTime) : DateTime := { t with offset := some (t.offset.getD .utc) }

def wallMicros (t : DateTime) : Int :=
  let seconds := ((t.date.ordinal * 24 + t.hour) * 60 + t.minute) * 60 + t.second
  (seconds * 1000000 + t.micro : Nat)

def clockText (t : DateTime) : List Char :=
  Numeral.padded 2 t.hour ++ ':' :: (Numeral.padded 2 t.minute ++ ':' :: (Numeral.padded 2 t.second
    ++ if t.micro.val = 0 then [] else '.' :: Numeral.padded 6 t.micro))

def text (joiner : Char) (t : DateTime) : List Char :=
  t.date.text ++ joiner :: (t.clockText ++ (t.offset.map Offset.text).getD [])

end DateTime
end RecordLiteral
