import FragmentLint.Text

/-!
Contract: why and where a text is not JSON.

A reader notes how many bytes it has not read when it gives up; the line and the column of a message
follow from that and from the whole text. A fault at an unsuitable byte counts that byte as read, so
the column is the number of bytes of the line up to and including it.
-/

namespace FragmentLint.Json

/-- Why a text is not JSON. -/
inductive Fault where
  | endInValue
  | endInObject
  | endInList
  | endInString
  | expectedValue
  | expectedWord
  | expectedColon
  | expectedObjectComma
  | expectedListComma
  | keyNotString
  | trailingComma
  | trailingText
  | invalidNumber
  | numberOutOfRange
  | invalidEscape
  | loneSurrogate
  | endOfEscape
  | controlCharacter
  | tooDeep
deriving DecidableEq, Repr, Inhabited

namespace Fault

def message : Fault → String
  | endInValue => "EOF while parsing a value"
  | endInObject => "EOF while parsing an object"
  | endInList => "EOF while parsing a list"
  | endInString => "EOF while parsing a string"
  | expectedValue => "expected value"
  | expectedWord => "expected ident"
  | expectedColon => "expected \x60:\x60"
  | expectedObjectComma => "expected \x60,\x60 or \x60\x7d\x60"
  | expectedListComma => "expected \x60,\x60 or \x60]\x60"
  | keyNotString => "key must be a string"
  | trailingComma => "trailing comma"
  | trailingText => "trailing characters"
  | invalidNumber => "invalid number"
  | numberOutOfRange => "number out of range"
  | invalidEscape => "invalid escape"
  | loneSurrogate => "lone leading surrogate in hex escape"
  | endOfEscape => "unexpected end of hex escape"
  | controlCharacter => "control character (\\u0000-\\u001F) found while parsing a string"
  | tooDeep => "recursion limit exceeded"

end Fault

/-- A fault, and how many bytes were not read when it was found. -/
structure Failure where
  fault : Fault
  unread : Nat
deriving DecidableEq, Repr

namespace Failure

/-- A fault at the first byte of what is left, or at the end if nothing is left. -/
def atFront (fault : Fault) (rest : Text) : Failure := ⟨fault, Text.bytes rest - 1⟩

def before (fault : Fault) (rest : Text) : Failure := ⟨fault, Text.bytes rest⟩

def atEnd (fault : Fault) : Failure := ⟨fault, 0⟩

end Failure

/-- A fault and its place. -/
structure SyntaxError where
  fault : Fault
  /-- The number of the line, from one. -/
  line : Nat
  /-- The number of bytes read on that line. -/
  column : Nat
deriving DecidableEq, Repr

namespace SyntaxError

def message (error : SyntaxError) : String :=
  error.fault.message ++ " at line " ++ toString error.line ++ " column " ++ toString error.column

/-- The line and the column after so many bytes of a text, counted on from a line and a column. -/
def place (line column : Nat) : Nat → Text → Nat × Nat
  | 0, _ => (line, column)
  | _, [] => (line, column)
  | count + 1, c :: rest =>
    if c == '\n' then place (line + 1) 0 count rest
    else
      let size := min c.utf8Size (count + 1)
      place line (column + size) (count + 1 - size) rest

def ofFailure (text : Text) (failure : Failure) : SyntaxError :=
  let (line, column) := place 1 0 (Text.bytes text - failure.unread) text
  ⟨failure.fault, line, column⟩

end SyntaxError

end FragmentLint.Json
