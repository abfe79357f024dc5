import FragmentLint.Grammar.TypeTerm

/-!
Contract: reading what declarations, parameters and assignments bind.

A pattern is a name, a member of something, or a pattern for the members of an object or an array.
-/

namespace FragmentLint.Grammar.Parser

/-- Reads a name that may be bound where an expression may begin too. -/
def boundName (nested : Nested) : Parser Unit := do
  let name ← wordAhead
  require !(name != "undefined".toList
    && Lexeme.isOneOf (Vocabulary.takenWords nested.dialect) name)
  wordAs (if name == "undefined".toList then .undefined else .identifier)

/-- Reads a name or a member of something. Unless `anyTarget`, a member is only looked for behind a
name. -/
def bindingTarget (nested : Nested) (anyTarget : Bool) : Parser Unit :=
  let plain : Parser Unit := do
    boundName nested
    check fun text => !Vocabulary.beginsLink nested.dialect (Trivia.behind text)
  plain <|>
    if anyTarget then nested.target
    else grow (boundName nested) fun _ => memberLink nested

def restPattern (nested : Nested) (anyTarget : Bool) : Parser Unit :=
  construct .restPattern do
    symbol "..."
    gaps
    nested.pattern anyTarget

/-- Reads a pattern, or one that takes what is left, with an optional default value. -/
def patternWithDefault (nested : Nested) (anyTarget : Bool) : Parser Unit :=
  grow (restPattern nested anyTarget <|> nested.pattern anyTarget) fun _ => do
    plainGaps
    initializer nested .bracket
    return .assignmentPattern

def arrayPattern (nested : Nested) (anyTarget : Bool) : Parser Unit :=
  construct .arrayPattern do
    symbol "["
    sparse (patternWithDefault nested anyTarget)
    symbol "]"

def objectPattern (nested : Nested) (anyTarget : Bool) : Parser Unit :=
  let pair : Parser Unit := construct .pairPattern do
    propertyName nested
    gaps
    symbol ":"
    gaps
    patternWithDefault nested anyTarget
  let withDefault (inner : Parser Unit) : Parser Unit := construct .objectAssignmentPattern do
    inner
    plainGaps
    initializer nested .bracket
  let shorthand : Parser Unit := wordAs .shorthandPattern
  let destructured : Parser Unit := do
    next '{' <|> next '['
    nested.pattern anyTarget
  let member : Parser Unit :=
    restPattern nested anyTarget <|> pair <|> withDefault shorthand <|> shorthand
      <|> withDefault destructured
  construct .objectPattern do
    symbol "\x7b"
    sparse member
    symbol "\x7d"

/-- Reads a pattern for the members of an object or an array. -/
def destructuringPattern (nested : Nested) (anyTarget : Bool) : Parser Unit :=
  objectPattern nested anyTarget <|> arrayPattern nested anyTarget

/-- Reads a pattern. An object or an array with a link behind it is the beginning of a member. -/
def pattern (nested : Nested) (anyTarget : Bool) : Parser Unit := do
  if Lexeme.headIn "\x7b[" (← ahead) then
    unlessBetter (destructuringPattern nested anyTarget)
      (fun rest => Vocabulary.beginsLink nested.dialect (Trivia.behind rest)) nested.target
  else bindingTarget nested anyTarget

def decorator (nested : Nested) : Parser Unit :=
  let dotted : Parser Unit := grow (wordAs .identifier) fun _ => do
    plainGaps
    symbol "."
    gaps
    wordAs .propertyIdentifier
    return .member
  let called : Parser Unit := unlessBetter dotted
    (fun rest => Lexeme.headIn "(<" (Trivia.behind rest))
    (construct .call do
      dotted
      plainGaps
      whereTyped nested do typeArguments nested; gaps
      arguments nested)
  construct .decorator do
    symbol "@"
    gaps
    called <|> do
      require nested.typed
      construct .parenthesized do
        symbol "("
        gaps
        called
        plainGaps
        symbol ")"

def decorators (nested : Nested) : Parser Unit := many do decorator nested; gaps

/-- Reads a question mark that makes a parameter optional: a colon, a comma or a closing
parenthesis follows it. -/
def optionalMark : Parser Unit := do
  check fun text =>
    text.head? == some '?'
      && Lexeme.headIn ":)," ((text.drop 1).dropWhile Semicolon.isAsciiSpace)
  symbol "?"

/-- Reads modifiers of a parameter. The words are names unless something to be bound follows. -/
def parameterModifiers (nested : Nested) : Parser Unit :=
  let one (words : List String) : Parser Unit := optional do
    anyKeyword words
    gaps
    check fun text =>
      let name := Lexeme.wordAt text
      Lexeme.headIn "\x7b[" text || Lexeme.begins "..." text
        || !name.isEmpty && !Lexeme.isOneOf (Vocabulary.operatorWords nested.dialect) name
  do
    one Vocabulary.accessWords
    one ["override"]
    one ["readonly"]

/-- Reads a parameter. With types there is always a parameter phrase; without, only a default value
makes one. -/
def parameter (nested : Nested) (anyTarget : Bool) : Parser Unit :=
  if nested.typed then
    let kind (isOptional : Bool) : Construct :=
      if isOptional then .optionalParameter else .requiredParameter
    discard <| constructBy kind do
      decorators nested
      parameterModifiers nested
      (do
        construct .this (keyword "this")
        check fun text => !Vocabulary.beginsLink nested.dialect (Trivia.behind text))
        <|> restPattern nested anyTarget <|> pattern nested anyTarget
      let isOptional ← (do gaps; optionalMark; return true) <|> return false
      optional do gaps; annotatedType nested .bracket
      optional do gaps; initializer nested .bracket
      return isOptional
  else patternWithDefault nested anyTarget

def parameters (nested : Nested) (anyTarget : Bool) : Parser Unit :=
  construct .formalParameters do
    symbol "("
    optional (listed (parameter nested anyTarget))
    gaps
    symbol ")"

end FragmentLint.Grammar.Parser
