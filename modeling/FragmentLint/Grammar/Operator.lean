import FragmentLint.Grammar.Nested

/-!
Contract: the operators between operands.

Operators have levels, from the conditional operator at 1 to exponentiation at 12; a sign in front
of its operand and its like bind at 13, steps such as `++` at 14, and links such as calls tighter
than all of them.

Owns: the table of levels, and the marks that are read with an eye on what surrounds them.
-/

namespace FragmentLint.Grammar

/-- What an operator between two operands is: its length, its level, and whether it groups to the
right. -/
structure Operator where
  length : Nat
  level : Nat
  toRight : Bool
deriving DecidableEq, Repr

namespace Operator

def signLevel : Nat := 13

def stepLevel : Nat := 14

/-- The level of operands that take no operator at all. -/
def tightest : Nat := 15

/-- The operators written with signs: the sign, the signs that make it a longer one if they follow,
and the level. -/
def signs : List (String × List String × Nat) := [
  ("**", ["="], 12), ("*", ["*", "="], 11), ("/", ["="], 11), ("%", ["="], 11),
  ("+", ["+", "="], 10), ("-", ["-", "="], 10),
  (">>>", ["="], 9), (">>", [">", "="], 9), ("<<", ["="], 9),
  ("<=", [], 8), (">=", [], 8), ("<", ["<", "="], 8), (">", [">", "="], 8),
  ("===", [], 7), ("!==", [], 7), ("==", ["="], 7), ("!=", ["="], 7),
  ("&&", ["="], 3), ("&", ["&", "="], 6), ("^", ["="], 5), ("||", ["="], 2), ("|", ["|", "="], 4),
  ("??", ["="], 1)]

def atFront? (inOperator : Bool) (text : Text) : Option Operator :=
  let found := signs.find? fun (sign, longer, _) =>
    Lexeme.begins sign text
      && !longer.any fun more => Lexeme.begins more (text.drop sign.toList.length)
  match found with
  | some (sign, _, level) => some ⟨sign.toList.length, level, level == 12⟩
  | none =>
    let name := Lexeme.wordAt text
    if name == "in".toList && inOperator || name == "instanceof".toList then
      some ⟨name.length, 8, false⟩
    else none

def compound : List String :=
  ["+=", "-=", "*=", "/=", "%=", "^=", "&=", "|=", ">>>=", ">>=", "<<=", "**=", "&&=", "||=", "??="]

/-- Whether a question mark begins a choice between two values: it is neither doubled nor the mark
of an optional chain. Where types may be written it also has to be followed by something other than
the end of an optional parameter. -/
def beginsChoice (dialect : Dialect) (text : Text) : Bool :=
  let pointsAt (after : Text) : Bool :=
    after.head? != some '.' || (after.drop 1).head?.any Char.isDigit
  match text with
  | '?' :: rest =>
    match dialect with
    | .javascript => rest.head? != some '?' && pointsAt rest
    | .tsx =>
      let after := rest.dropWhile Semicolon.isAsciiSpace
      !Lexeme.headIn "?." rest && !Lexeme.headIn ":)," after && pointsAt after
  | _ => false

/-- The length of white space and block comments in front of a question mark. -/
def blocksBeforeChoice? (dialect : Dialect) : (bound text : Text) → Option Nat
  | [], _ => none
  | _ :: bound, text =>
    match text with
    | '/' :: '*' :: rest =>
      match Trivia.splitBlock? rest with
      | some (body, after) =>
        (blocksBeforeChoice? dialect bound after).map (· + (body.length + 4))
      | none => none
    | c :: rest =>
      if Semicolon.isAsciiSpace c then (blocksBeforeChoice? dialect bound rest).map (· + 1)
      else if beginsChoice dialect text then some 0 else none
    | [] => none

/-- The length of what stands between the end of a line and a question mark that goes on with it. -/
def swallowed? (dialect : Dialect) (text : Text) : Option Nat :=
  if (text.takeWhile Semicolon.isAsciiSpace).contains '\n' then
    blocksBeforeChoice? dialect text text
  else none

end Operator

namespace Parser

/-- Reads a question mark that begins a choice. Behind the last comment only ASCII white space may
stand in front of it. Where types may be written and a statement may end, the comments in front of it
on its line are part of it. -/
def questionMark (nested : Nested) (place : Place) : Parser Unit := do
  (do
    require (nested.typed && place.ending.isSome)
    hidden (Operator.swallowed? nested.dialect))
    <|> do
      many comment
      check fun text => (text.takeWhile Trivia.isSpace).all Semicolon.isAsciiSpace
      plainGaps
  check (Operator.beginsChoice nested.dialect)
  symbol "?"

def chainMark : Parser Unit := do
  check Vocabulary.beginsChain
  symbol "?."

/-- Reads an operator that a level admits; the value is the operator. -/
def operatorAtLeast (least : Nat) (place : Place) : Parser Operator := do
  match Operator.atFront? place.inOperator (← ahead) with
  | none => Parser.fail
  | some operator =>
    require (least ≤ operator.level)
    token fun _ => some operator.length
    return operator

end Parser

end FragmentLint.Grammar
