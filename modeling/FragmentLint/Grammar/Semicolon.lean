import FragmentLint.Dialect
import FragmentLint.Grammar.Lexeme

/-!
Contract: where a statement ends without a semicolon.

A statement ends at the end of the file, before a closing brace, and at a line feed unless the next
line goes on with something that continues what precedes. The two dialects differ in a few of these
cases, and in the comments that they look past: with types, none on the same line; without, all of
them up to the first block comment.

Where a semicolon is possible at all, it is implied before anything else is tried. That is asked
right behind a token and again behind every comment that follows, so a comment belongs to the
statement exactly if the end is implied behind the comment only.
-/

namespace FragmentLint.Grammar

/-- What precedes a place where a statement may end. -/
inductive Ending where
  /-- An expression, which an operator could continue. -/
  | operand
  /-- Something that no operator continues. -/
  | bare
  /-- The head of a function, which a block could continue. -/
  | signature
deriving DecidableEq, Repr

namespace Semicolon

/-- White space within the search for the end of a statement. -/
def isAsciiSpace (c : Char) : Bool := c == ' ' || (9 ≤ c.toNat && c.toNat ≤ 13)

/-- Whether a character ends a line comment within the search for the end of a statement. -/
def endsLine (dialect : Dialect) (c : Char) : Bool :=
  match dialect with
  | .javascript => Trivia.isLineFeed c
  | .tsx => c == '\n'

/-- The text behind white space and comments; `none` where a slash begins no comment. -/
def skipLayout (dialect : Dialect) : (bound text : Text) → Option Text
  | [], text => some text
  | _ :: bound, text =>
    match text with
    | '/' :: '/' :: rest => skipLayout dialect bound (rest.dropWhile (!endsLine dialect ·))
    | '/' :: '*' :: rest =>
      match Trivia.splitBlock? rest with
      | some (_, after) => skipLayout dialect bound after
      | none => some []
    | '/' :: _ => none
    | c :: rest => if isAsciiSpace c then skipLayout dialect bound rest else some (c :: rest)
    | [] => some []

/-- Whether a line that begins with `i` begins with one of the operators `in` and `instanceof`,
rather than with another word. -/
def beginsInOperator (afterI : Text) : Bool :=
  match afterI with
  | 'n' :: rest =>
    match rest with
    | [] => true
    | c :: _ =>
      if !c.isAlpha then true
      else
        let word := "stanceof".toList
        word.isPrefixOf rest && !((rest.drop word.length).head?.any Char.isAlpha)
  | _ => false

/-- Whether a new line begins something new, seen from its first token. -/
def beginsAnew (dialect : Dialect) (ending : Ending) (line : Text) : Bool :=
  match line with
  | [] => true
  | c :: rest =>
    if "\x60,:;*%><=?^|&/".toList.contains c then false
    else if c == '(' || c == '[' then dialect == .tsx && ending != .operand
    else if c == '{' then !(dialect == .tsx && ending == .signature)
    else if c == '.' then dialect == .javascript && rest.head?.any Char.isDigit
    else if c == '+' then rest.head? == some '+'
    else if c == '-' then rest.head? == some '-'
    else if c == '!' then rest.head? != some '='
    else if c == 'i' then !beginsInOperator rest
    else true

/-- What a look past comments on the same line comes to. -/
inductive Glance where
  /-- A slash that begins no comment. -/
  | blocked
  /-- The text behind the comments, and whether they may end a statement by themselves. -/
  | past (mayEnd : Bool) (rest : Text)

/-- Looks past white space and comments, but past a block comment only if a slash follows it at
once. The comments may end a statement unless the last one is a block comment and no line ended in
any block comment, as `lineEnded` says of those before. -/
def glance (lineEnded : Bool) : (bound text : Text) → Glance
  | [], text => .past true text
  | _ :: bound, text =>
    match text with
    | '/' :: '/' :: rest => glance lineEnded bound (rest.dropWhile (!Trivia.isLineFeed ·))
    | '/' :: '*' :: rest =>
      match Trivia.splitBlock? rest with
      | some (body, after) =>
        let ended := lineEnded || body.any Trivia.isLineFeed
        if after.head? == some '/' then glance ended bound after else .past ended after
      | none => .past true []
    | '/' :: _ => .blocked
    | c :: rest => if isAsciiSpace c then glance lineEnded bound rest else .past true (c :: rest)
    | [] => .past true []

/-- Whether the end of a statement is implied where no comment is ahead; `further` answers for the
text behind a blank. -/
def isImpliedHere (dialect : Dialect) (ending : Ending) (further : Text → Bool) : Text → Bool
  | [] => false
  | c :: rest =>
    if c == '}' then
      match dialect with
      | .javascript => true
      | .tsx => (rest.dropWhile isAsciiSpace).head? != some ':' || ending == .operand
    else if endsLine dialect c then
      match skipLayout dialect rest rest with
      | some line => beginsAnew dialect ending line
      | none => false
    else isAsciiSpace c && further rest

/-- Whether the end of a statement is implied, within as many steps as `bound` has characters. -/
def isImpliedAlong (dialect : Dialect) (ending : Ending) : (bound text : Text) → Bool
  | [], text => text.isEmpty
  | _ :: bound, text =>
    let here := isImpliedHere dialect ending (isImpliedAlong dialect ending bound)
    match text with
    | [] => true
    | c :: _ =>
      if c == '/' && dialect == .javascript then
        match glance false text text with
        | .blocked => false
        | .past mayEnd rest =>
          mayEnd && ending != .operand && rest.head? != some ',' && rest.head? != some '='
            || here rest
      else here text

/-- Whether a statement ends here without a semicolon. -/
def isImplied (dialect : Dialect) (ending : Ending) (text : Text) : Bool :=
  isImpliedAlong dialect ending text text

/-- The text behind a comment and the white space in front of it, if a comment is ahead. -/
def behindComment? (text : Text) : Option Text :=
  match Trivia.nextPlain? (text.dropWhile Trivia.isSpace) with
  | some (.line _, rest) => some rest
  | some (.block _, rest) => some rest
  | _ => none

/-- Whether a statement ends before the next token, within as many comments as `bound` has
characters. -/
def isEndedAlong (dialect : Dialect) (ending : Ending) : (bound text : Text) → Bool
  | [], text => isImplied dialect ending text
  | _ :: bound, text =>
    isImplied dialect ending text
      || (behindComment? text).any (isEndedAlong dialect ending bound)

/-- Whether a statement ends without a semicolon before the next token. -/
def isEnded (dialect : Dialect) (ending : Ending) (text : Text) : Bool :=
  isEndedAlong dialect ending text text

end Semicolon

namespace Parser

/-- Reads a comment and the white space in front of it. -/
def comment : Parser Unit := do
  check fun text => (Semicolon.behindComment? text).isSome
  optional do check (fun text => text.head?.any Trivia.isSpace); trivia false
  trivia false

/-- Reads comments up to the first place where a statement ends without a semicolon. -/
def impliedEndAlong (dialect : Dialect) (ending : Ending) : (bound : Text) → Parser Unit
  | [] => check (Semicolon.isImplied dialect ending)
  | _ :: bound =>
    check (Semicolon.isImplied dialect ending)
      <|> do comment; impliedEndAlong dialect ending bound

/-- Reads comments up to where a statement ends without a semicolon. -/
def impliedEnd (dialect : Dialect) (ending : Ending) : Parser Unit := do
  impliedEndAlong dialect ending (← ahead)

/-- Reads the end of a statement, with a semicolon or without, and comments in front of it. -/
def semicolonAlong (dialect : Dialect) (ending : Ending) : (bound : Text) → Parser Unit
  | [] => check (Semicolon.isImplied dialect ending)
  | _ :: bound =>
    check (Semicolon.isImplied dialect ending)
      <|> (do optional (trivia false); symbol ";")
      <|> do comment; semicolonAlong dialect ending bound

def semicolon (dialect : Dialect) (ending : Ending) : Parser Unit := do
  semicolonAlong dialect ending (← ahead)

/-- Goes on unless a statement, if one may end here, ends before the next token. -/
def unended (dialect : Dialect) (ending : Option Ending) : Parser Unit :=
  check fun text => !ending.any fun ending => Semicolon.isEnded dialect ending text

end Parser

end FragmentLint.Grammar
