import FragmentLint.Grammar.Name
import FragmentLint.Grammar.Semicolon
import FragmentLint.Grammar.Vocabulary

/-!
Contract: what the parts of the grammar need of each other.

Expressions hold statements, statements hold expressions, and markup holds both. Each part of the
grammar is therefore written against a record of parsers for what may be nested in it; `Source` ties
the parts together to a depth that no text exceeds.

Owns: what the surroundings of an expression or a type decide about it, and the brackets that hold
expressions or statements.
-/

namespace FragmentLint.Grammar

/-- What the surroundings of an expression decide about it. -/
structure Place where
  /-- How a statement may end behind the expression, if one may. -/
  ending : Option Ending
  /-- Whether a colon behind parameters may begin the type of the result of a function. -/
  resultTypes : Bool
  /-- Whether `in` is an operator. -/
  inOperator : Bool
  /-- Whether a block or the body of a class follows, so that a brace begins no operand. -/
  bodyFollows : Bool
deriving DecidableEq, Repr

namespace Place

def bracket : Place := ⟨none, true, true, false⟩

def statement : Place := ⟨some .operand, true, true, false⟩

end Place

/-- What the surroundings of a type decide about it. -/
structure TypePlace where
  /-- How a statement may end behind the type, if one may. -/
  ending : Option Ending
  /-- Whether the type may be that of a function. -/
  functions : Bool
  /-- Whether operators on values may follow. -/
  operators : Bool
  /-- Whether the type begins with one that takes part in no longer type on its left. -/
  primary : Bool
deriving DecidableEq, Repr

namespace TypePlace

/-- Where nothing but a type may stand, and a statement may end behind it as given. -/
def upTo (ending : Option Ending) : TypePlace := ⟨ending, true, false, false⟩

def bracket : TypePlace := upTo none

end TypePlace

/-- Which operators an operand may take along. -/
structure Level where
  /-- The lowest level of the operators. -/
  least : Nat
  /-- Whether casts and assertions that a value is present are among them. -/
  casts : Bool
deriving DecidableEq, Repr

namespace Level

def any : Level := ⟨0, true⟩

end Level

/-- Parsers for nested constructs. -/
structure Nested where
  dialect : Dialect
  /-- One expression; no sequence. -/
  expression : Place → Parser Unit
  /-- An operand with the operators behind it that a level admits. -/
  operand : Level → Place → Parser Unit
  /-- A name or a member of something, to be assigned to. -/
  target : Parser Unit
  /-- An element or a fragment. -/
  element : Parser Unit
  statement : Parser Unit
  /-- A declaration where no expression may stand. -/
  declaration : Parser Unit
  /-- What may be bound. Unless `anyTarget`, a member is only looked for behind a name. -/
  pattern : (anyTarget : Bool) → Parser Unit
  /-- Parameters in their parentheses, with patterns of the same extent. -/
  parameters : (anyTarget : Bool) → Parser Unit
  typeTerm : TypePlace → Parser Unit

namespace Nested

def none (dialect : Dialect) : Nested where
  dialect := dialect
  expression := fun _ => Parser.fail
  operand := fun _ _ => Parser.fail
  target := Parser.fail
  element := Parser.fail
  statement := Parser.fail
  declaration := Parser.fail
  pattern := fun _ => Parser.fail
  parameters := fun _ => Parser.fail
  typeTerm := fun _ => Parser.fail

def typed (nested : Nested) : Bool := nested.dialect == .tsx

/-- Whether the end of a statement is implied before the next token, where one may end. -/
def isEnded (nested : Nested) (ending : Option Ending) (text : Text) : Bool :=
  ending.any fun ending => Semicolon.isEnded nested.dialect ending text

end Nested

namespace Parser

/-- Reads what a parser reads where types may be written, and nothing elsewhere. -/
def whereTyped (nested : Nested) (inner : Parser Unit) : Parser Unit :=
  if nested.typed then optional inner else pure ()

/-- Reads an equals sign that begins no longer sign. -/
def equals : Parser Unit := do
  check Vocabulary.beginsEquals
  symbol "="

def annotatedType (nested : Nested) (place : TypePlace) : Parser Unit :=
  construct .annotatedType do
    symbol ":"
    gaps
    nested.typeTerm place

def expressions (nested : Nested) (place : Place) : Parser Unit :=
  grow (nested.expression place) fun _ => do
    many1 do
      plainGaps
      symbol ","
      gaps
      nested.expression place
    return .sequence

def isSequence (phrases : List Phrase) : Bool :=
  match phrases with
  | [.construct .sequence _] => true
  | _ => false

/-- Reads expressions in parentheses. With types, a single one may be followed by its type. -/
def parenthesized (nested : Nested) : Parser Unit :=
  construct .parenthesized do
    symbol "("
    gaps
    let inside ← reading (expressions nested .bracket)
    if nested.typed && !isSequence inside then
      optional do plainGaps; annotatedType nested .bracket
    plainGaps
    symbol ")"

/-- Reads statements in braces, and up to the end of a statement where one is implied behind
them. -/
def block (nested : Nested) (ending : Ending) : Parser Unit :=
  construct .statementBlock do
    symbol "\x7b"
    many do gaps; nested.statement
    gaps
    symbol "\x7d"
    optional (impliedEnd nested.dialect ending)

end Parser

end FragmentLint.Grammar
