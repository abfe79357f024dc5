import FragmentLint.Dialect
import FragmentLint.Grammar.Lexeme

/-!
Contract: the words with a meaning of their own, and what the text ahead may begin.

A word is taken for what it means wherever that meaning is possible, so the lists say where a word
cannot be a name. Some words with a meaning, such as `get`, are names too; these are `soft`.

Owns: the lists of words, and the tests on the text ahead that decide between two readings.
Does not own: reading.
-/

namespace FragmentLint.Grammar.Vocabulary

open Lexeme

/-- The operators between operands that are written as words. -/
def operatorWords (dialect : Dialect) : List String :=
  match dialect with
  | .javascript => ["in", "instanceof"]
  | .tsx => ["in", "instanceof", "as", "satisfies"]

/-- The words that cannot be names where an expression begins. `undefined` is one of them, though
it may be bound like a name. -/
def operandWords : List String :=
  ["import", "await", "yield", "class", "function", "using", "typeof", "void", "delete", "this",
    "super", "true", "false", "null", "undefined"]

def newIsName (dialect : Dialect) : Bool := dialect == .tsx

/-- The words that cannot be names where an expression begins, `new` included where it is one. -/
def takenWords (dialect : Dialect) : List String :=
  if newIsName dialect then operandWords else "new" :: operandWords

/-- The words that begin a statement and nothing else. -/
def statementWords : List String :=
  ["with", "var", "const", "if", "switch", "for", "while", "do", "try", "break", "continue",
    "debugger", "return", "throw"]

/-- The words that begin a statement only where types may be written. -/
def typedStatementWords : List String := ["abstract", "interface", "enum"]

/-- The words that name a type by themselves and take no members and no type arguments. -/
def plainTypeWords : List String :=
  ["any", "number", "boolean", "string", "symbol", "void", "unknown", "never", "object", "true",
    "false", "null", "undefined", "this", "const"]

/-- The words that name a type and may also name what a predicate is about. -/
def predicateWords : List String :=
  ["any", "number", "boolean", "string", "symbol", "void", "unknown", "never", "object", "this"]

def typeOperatorWords : List String :=
  ["import", "typeof", "new", "readonly", "abstract", "infer", "keyof", "unique"]

def accessWords : List String := ["public", "private", "protected"]

/-- Whether a text begins with an equals sign that begins no longer sign. -/
def beginsEquals (text : Text) : Bool :=
  text.head? == some '=' && !headIn "=>" (text.drop 1)

/-- Whether a text begins with the mark of an optional chain, which no digit follows. -/
def beginsChain (text : Text) : Bool :=
  begins "?." text && !(text.drop 2).head?.any Char.isDigit

/-- Whether a text begins with an exclamation mark that begins no comparison. -/
def beginsBang (text : Text) : Bool :=
  text.head? == some '!' && (text.drop 1).head? != some '='

/-- Whether an operand begins, rather than an operator between two operands. A sign that may be
either counts as the beginning of an operand. -/
def beginsOperand (dialect : Dialect) (text : Text) : Bool :=
  let word := wordAt text
  if !word.isEmpty then !isOneOf (operatorWords dialect) word
  else
    headIn "([\x7b<+-~/\x60\"'#@" text || beginsBang text || (number? text).isSome

/-- Whether something begins that an expression which is complete could go on with and no operand
could begin with. -/
def beginsContinuation (dialect : Dialect) (text : Text) : Bool :=
  isOneOf (operatorWords dialect) (wordAt text)
    || headIn ",?*%&|^>=" text || begins "!=" text
    || text.head? == some '.' && !(text.drop 1).head?.any Char.isDigit

/-- Whether a link follows with which a member of something begins. -/
def beginsLink (dialect : Dialect) (text : Text) : Bool :=
  headIn "[(\x60" text || beginsChain text || dialect == .tsx && beginsBang text
    || text.head? == some '.' && !begins "..." text

end FragmentLint.Grammar.Vocabulary
