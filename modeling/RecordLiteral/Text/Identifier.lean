import RecordLiteral.Text.Numeral

/-! # Identifiers

A name made of ASCII letters, digits and underscores stands bare, unless it could
be taken for an integer. Any other name is delimited by `⟨` and `⟩`, and a closing
delimiter inside it gets a backslash in front. Backslashes of the name itself are
kept as they are.
-/
namespace RecordLiteral.Identifier

def openDelimiter : Char := '⟨'
def closeDelimiter : Char := '⟩'
def escapeMark : Char := '\\'

def separator : Char := '_'

def isBare (c : Char) : Bool := c.isAlphanum || c == separator

def isLeadingDigit (c : Char) : Bool := c.isDigit && c != '0'

/-- Decimal numerals of integers: no leading zeros, and a minus sign only in
front of a number other than zero. -/
def isIntegerNumeral : List Char → Bool
  | ['0'] => true
  | '-' :: c :: digits => isLeadingDigit c && digits.all Char.isDigit
  | c :: digits => isLeadingDigit c && digits.all Char.isDigit
  | [] => false

/-- Integer numerals with at most one separator put in. Only the first separator
is set aside, so a second one makes the text a name. -/
def isNumberLike (text : List Char) : Bool := isIntegerNumeral (text.erase separator)

def mark (text : List Char) : List Char :=
  text.flatMap fun c => if c = closeDelimiter then [escapeMark, c] else [c]

def delimit (body : List Char) : List Char := openDelimiter :: (body ++ [closeDelimiter])

def write (text : List Char) : List Char :=
  if isNumberLike text then delimit text
  else if text.all isBare then text
  else delimit (mark text)

end RecordLiteral.Identifier
