import RecordLiteral.Text.Debug

/-! # Faults

Why an operation gives no result, the class that such a fault is reported in, and the text
that says so.
-/
namespace RecordLiteral

inductive Rejection
  | table (typeName : String)
  | id (table : String) (typeName : String)
  | source (typeName : String)
  deriving DecidableEq

namespace Rejection

def message : Rejection → String
  | .table typeName => "table part is not valid: expected str, got " ++ typeName
  | .id _ typeName => "id part is not valid: unsupported type " ++ typeName
  | .source typeName =>
    "string record id must be a string, RecordId or StringRecordId, got " ++ typeName

def logEntry (r : Rejection) : String :=
  match r with
  | .table .. => "rejecting record id: " ++ r.message
  | .id name _ =>
    "rejecting record id for table " ++ String.ofList (Debug.text name.toList) ++ ": " ++ r.message
  | .source .. => "rejecting string record id: " ++ r.message

end Rejection

inductive Fault
  | rejected (reason : Rejection)
  | unhashable (typeName : String)
  /-- Going through a container that holds itself does not end. -/
  | endless
  | signalingDigest
  | signalingComparison
  | unordered (typeName : String)
  | notEmbeddable (typeName : String)
  | badObjectKey (typeName : String)
  | immutable (typeName : String)
  | noAttribute (typeName name : String)
  | missingArguments (typeName : String) (names : List String)
  | surplusArguments (typeName : String) (expected given : Nat)
  | noAssignment (typeName : String)
  /-- Removal by position is refused in other words than removal by key. -/
  | noDeletion (typeName : String) (byPosition : Bool)
  | noItems (typeName : String)
  | notAnIndex (container typeName : String)
  | notATextIndex (typeName : String)
  | outOfRange (container : String)
  | outOfRangeOfBytes
  | positionTooLarge
  | missingKey (debugText : String)
  | notAByte
  | notAnInteger (typeName : String)
  | malformedInteger (base : Nat) (text : String)
  | malformedDecimal
  | decimalOutOfBounds
  | malformedUuid
  | badYear (year : Int)
  | badMonth
  | badDay
  | badClock (unit : String) (bound : Nat)
  | badOffset (durationText : String)
  deriving DecidableEq

namespace Fault

/-- The class of errors in which a fault is reported. -/
def className : Fault → String
  | .rejected _ => "InvalidRecordIdError"
  | .endless => "RecursionError"
  | .signalingComparison | .malformedDecimal | .decimalOutOfBounds => "InvalidOperation"
  | .immutable _ | .noAttribute .. => "AttributeError"
  | .outOfRange _ | .outOfRangeOfBytes | .positionTooLarge => "IndexError"
  | .missingKey _ => "KeyError"
  | .notAByte | .malformedInteger .. | .malformedUuid | .badYear _ | .badMonth | .badDay
  | .badClock .. | .badOffset _ => "ValueError"
  | .unhashable _ | .signalingDigest | .unordered _ | .notEmbeddable _ | .badObjectKey _
  | .missingArguments .. | .surplusArguments .. | .noAssignment _ | .noDeletion .. | .noItems _
  | .notAnIndex .. | .notATextIndex _ | .notAnInteger _ => "TypeError"

/-- Names in single quotes, the last two joined by a word. -/
def enumerate : List String → String
  | [] => ""
  | [name] => "'" ++ name ++ "'"
  | [first, second] => "'" ++ first ++ "' and '" ++ second ++ "'"
  | name :: rest => "'" ++ name ++ "', " ++ enumerate rest

def message : Fault → String
  | .rejected reason => reason.message
  | .unhashable typeName => "unhashable type: '" ++ typeName ++ "'"
  | .endless => "maximum recursion depth exceeded in comparison"
  | .signalingDigest => "Cannot hash a signaling NaN value"
  | .signalingComparison => "[<class 'decimal.InvalidOperation'>]"
  | .unordered typeName =>
    "'<=' not supported between instances of '" ++ typeName ++ "' and 'int'"
  | .notEmbeddable typeName => "Object of type " ++ typeName ++ " is not JSON serializable"
  | .badObjectKey typeName => "keys must be str, int, float, bool or None, not " ++ typeName
  | .immutable typeName => typeName ++ " is immutable"
  | .noAttribute typeName name =>
    "'" ++ typeName ++ "' object has no attribute '" ++ name ++ "'"
  | .missingArguments typeName names =>
    typeName ++ ".__init__() missing " ++ toString names.length ++ " required positional argument"
      ++ (if names.length = 1 then "" else "s") ++ ": " ++ enumerate names
  | .surplusArguments typeName expected given =>
    typeName ++ ".__init__() takes " ++ toString expected ++ " positional arguments but "
      ++ toString given ++ " were given"
  | .noAssignment typeName => "'" ++ typeName ++ "' object does not support item assignment"
  | .noDeletion typeName byPosition =>
    "'" ++ typeName ++ "' object " ++ (if byPosition then "doesn't" else "does not")
      ++ " support item deletion"
  | .noItems typeName => "'" ++ typeName ++ "' object is not subscriptable"
  | .notAnIndex container typeName =>
    container ++ " indices must be integers or slices, not " ++ typeName
  | .notATextIndex typeName => "string indices must be integers, not '" ++ typeName ++ "'"
  | .outOfRange container => container ++ " index out of range"
  | .outOfRangeOfBytes => "index out of range"
  | .positionTooLarge => "cannot fit 'int' into an index-sized integer"
  | .missingKey debugText => debugText
  | .notAByte => "byte must be in range(0, 256)"
  | .notAnInteger typeName => "'" ++ typeName ++ "' object cannot be interpreted as an integer"
  | .malformedInteger base text =>
    "invalid literal for int() with base " ++ toString base ++ ": "
      ++ String.ofList (Debug.text text.toList)
  | .malformedDecimal => "[<class 'decimal.ConversionSyntax'>]"
  | .decimalOutOfBounds => "[<class 'decimal.InvalidOperation'>]"
  | .malformedUuid => "badly formed hexadecimal UUID string"
  | .badYear year => "year " ++ toString year ++ " is out of range"
  | .badMonth => "month must be in 1..12"
  | .badDay => "day is out of range for month"
  | .badClock unit bound => unit ++ " must be in 0.." ++ toString (bound - 1)
  | .badOffset durationText =>
    "offset must be a timedelta strictly between -timedelta(hours=24) and timedelta(hours=24), not "
      ++ durationText ++ "."

theorem message_rejected (r : Rejection) : (rejected r).message = r.message := rfl

end Fault
end RecordLiteral
