import FragmentLint.Grammar.Class
import FragmentLint.Grammar.Element
import FragmentLint.Grammar.Operator

/-!
Contract: reading expressions.

An expression is an operand that grows at its right end by links and operators as long as its level
admits them. Functions with an arrow and assignments may stand wherever an operand may: they reach as
far to the right as they can.

Where one text could be read in two ways, the shorter reading comes first, and what stands behind it
says whether to read anew: an arrow behind parentheses, an equals sign behind a literal.
-/

namespace FragmentLint.Grammar.Parser

/-- Whether phrases are an expression that a template may follow as its argument, or the mark of an
optional call. -/
def isPrimary (phrases : List Phrase) : Bool :=
  match phrases with
  | [.construct kind _] =>
    [Construct.subscript, .member, .parenthesized, .identifier, .undefined, .this, .super, .number,
      .string, .templateString, .regex, .true_, .false_, .null, .object, .array,
      .functionExpression, .generatorFunction, .arrowFunction, .classExpression, .metaProperty,
      .call, .nonNull].contains kind
  | _ => false

def isNew (phrases : List Phrase) : Bool :=
  match phrases with
  | [.construct .new _] => true
  | _ => false

def isImportWord (phrases : List Phrase) : Bool :=
  match phrases with
  | [.construct .importWord _] => true
  | _ => false

/-- Whether phrases are a name or a member of something. -/
def isTarget (phrases : List Phrase) : Bool :=
  match phrases with
  | [.construct kind _] =>
    [Construct.identifier, .undefined, .member, .subscript, .nonNull].contains kind
  | _ => false

/-- Whether phrases may stand to the left of an equals sign. -/
def isAssignable (phrases : List Phrase) : Bool :=
  match phrases with
  | [.construct .parenthesized _] => true
  | other => isTarget other

/-- Reads a member behind the mark of an optional chain. -/
def chainedMember (nested : Nested) : Parser Construct := do
  plainGaps
  construct .optionalChain chainMark
  gaps
  (do memberName; return .member) <|> do index nested; return .subscript

/-- Reads a call behind the mark of an optional chain. With types the mark is a plain token and makes
no chain. -/
def chainedCall (nested : Nested) : Parser Construct := do
  plainGaps
  if nested.typed then chainMark else construct .optionalChain chainMark
  gaps
  whereTyped nested do typeArguments nested; gaps
  arguments nested
  return .call

/-- Reads a template behind what it is an argument of. -/
def templateCall (nested : Nested) : Parser Construct := do
  plainGaps
  template nested
  return .call

def link (nested : Nested) (object : List Phrase) : Parser Construct :=
  memberLink nested
    <|> (do
      plainGaps
      arguments nested
      return .call)
    <|> chainedMember nested
    <|> (do
      require (isPrimary object)
      chainedCall nested)
    <|> do
      require (isPrimary object || isNew object)
      templateCall nested

/-- Reads a link that belongs to the class that `new` makes a value of. -/
def constructorLink (nested : Nested) (object : List Phrase) : Parser Construct :=
  memberLink nested <|> chainedMember nested <|> do
    require (isPrimary object)
    templateCall nested <|> chainedCall nested

def presenceMark : Parser Construct := do
  plainGaps
  check Vocabulary.beginsBang
  symbol "!"
  return .nonNull

/-- Whether the types that a value is applied to end where a comparison could not. The text is what
follows the closing sign. -/
def endsApplication (nested : Nested) (place : Place) (text : Text) : Bool :=
  let after := Trivia.behind text
  !Lexeme.headIn ">=" text
    && (nested.isEnded place.ending text || place.bodyFollows && after.head? == some '{'
      || !Vocabulary.beginsOperand nested.dialect after
      || after.head? == some '[' || after.head? == some '/'
      || (after.head? == some '+' || after.head? == some '-')
        && (after.drop 1).head? != after.head?)

/-- Reads types that a value is applied to, and the arguments behind them, if there are any. Where an
operand follows instead, the signs are comparisons. -/
def application (nested : Nested) (place : Place) : Parser Construct := do
  plainGaps
  typeArguments nested
  (do
    plainGaps
    arguments nested
    return .call)
  <|> do
    check (endsApplication nested place)
    return .instantiation

/-- Reads an operator between two operands and the second of them. -/
def binaryTail (nested : Nested) (level : Level) (place : Place) : Parser Construct := do
  plainGaps
  let operator ← operatorAtLeast level.least place
  gaps
  let next := if operator.toRight then operator.level else operator.level + 1
  nested.operand ⟨next, operator.toRight⟩ place
  return .binary

/-- Reads what stands in front of a colon, and the colon. A colon that would begin the type of the
result of a function is tried as that first. -/
def beforeColon (nested : Nested) (inner : Place → Parser Unit) : Parser Unit :=
  let colonMissing (rest : Text) : Bool := (Trivia.behind rest).head? != some ':'
  do
    if nested.typed then
      unlessBetter (inner .bracket) colonMissing (inner { Place.bracket with resultTypes := false })
    else inner .bracket
    plainGaps
    symbol ":"

def choiceTail (nested : Nested) (place : Place) : Parser Construct := do
  questionMark nested place
  gaps
  beforeColon nested nested.expression
  gaps
  nested.expression place
  return .ternary

def castTail (nested : Nested) (place : Place) : Parser Construct := do
  plainGaps
  let kind ← (do keyword "as"; return .asExpression) <|> do
    keyword "satisfies"
    return .satisfiesExpression
  gaps
  nested.typeTerm ⟨place.ending, true, true, false⟩
  return kind

/-- Reads an assignment behind what is assigned to. -/
def assignmentTail (nested : Nested) (place : Place) : Parser Construct := do
  plainGaps
  let kind ← (do equals; return .assignment) <|> do
    anySymbol Operator.compound
    return .augmentedAssignment
  gaps
  nested.expression place
  return kind

/-- Reads what may follow an operand that takes the operators of a level. -/
def tail (nested : Nested) (level : Level) (place : Place) (operand : List Phrase) :
    Parser Construct := do
  unended nested.dialect place.ending
  if isImportWord operand then
    (do plainGaps; arguments nested; return .call)
      <|> (do
        require nested.typed
        plainGaps
        typeArguments nested
        plainGaps
        arguments nested
        return .call)
      <|> chainedMember nested
  else
    link nested operand
      <|> (do
        require (isAssignable operand)
        assignmentTail nested place)
      <|> (do
        require (level.least ≤ Operator.signLevel)
        plainGaps
        anySymbol ["++", "--"]
        return .update)
      <|> (do
        require (nested.typed && level.casts)
        presenceMark <|> castTail nested place)
      <|> (do
        require (nested.typed && level.least == 0)
        application nested place)
      <|> binaryTail nested level place
      <|> do
        require (level.least ≤ 1)
        choiceTail nested place

def array (nested : Nested) : Parser Unit :=
  construct .array do
    symbol "["
    sparse (spread nested <|> nested.expression .bracket)
    symbol "]"

def object (nested : Nested) : Parser Unit :=
  let pair : Parser Unit := construct .pair do
    propertyName nested
    gaps
    symbol ":"
    gaps
    nested.expression .bracket
  construct .object do
    symbol "\x7b"
    sparse (spread nested <|> pair <|> method nested <|> wordAs .shorthandPropertyIdentifier)
    symbol "\x7d"

def destructuring (nested : Nested) (place : Place) (anyTarget : Bool) : Parser Unit :=
  construct .assignment do
    destructuringPattern nested anyTarget
    plainGaps
    equals
    gaps
    nested.expression place

/-- Reads a literal of an array or an object, or a pattern of the same shape that is assigned to. -/
def literalOrPattern (nested : Nested) (place : Place) (literal : Parser Unit) : Parser Unit :=
  unlessBetter literal (fun rest => Vocabulary.beginsEquals (Trivia.behind rest))
      (destructuring nested place true)
    <|> destructuring nested place false

/-- Goes on where a brace begins an object whose first member could not begin a statement. -/
def beginsObject (nested : Nested) : Parser Unit :=
  let pairMark : Parser Unit := do
    gaps
    next ':'
  let methodMark : Parser Unit := do
    gaps
    whereTyped nested do typeParameters nested; gaps
    nested.parameters false
    whereTyped nested do gaps; resultType nested .bracket
    gaps
    next '{'
  let marked : Parser Unit := do
    discard (modifier nested (Modifier.words nested.dialect) [] (some .operand))
  let taken := Vocabulary.takenWords nested.dialect ++ Vocabulary.statementWords
    ++ if nested.typed then Vocabulary.typedStatementWords else []
  let named : Parser Unit := do
    wordExcept taken
    pairMark <|> methodMark <|> do gaps; check Vocabulary.beginsEquals
  let literal : Parser Unit := do
    string <|> number
    pairMark <|> methodMark
  do
    symbol "\x7b"
    gaps
    anySymbol ["...", ",", "["] <|> marked <|> named <|> literal <|> privateName

def arrowBody (nested : Nested) (place : Place) : Parser Unit := do
  if (← ahead).head? == some '{' then
    if ← finds (beginsObject nested) then nested.expression place <|> block nested .operand
    else block nested .operand
  else nested.expression place

/-- Reads the arrow of a function behind its parameters, and the body. Where a type of the result
may stand it is read as far as possible, or else up to the first arrow. -/
def arrowTail (nested : Nested) (place : Place) : Parser Unit := do
  let arrow : Parser Unit := do plainGaps; symbol "=>"
  let typed (functions : Bool) : Parser Unit := do
    gaps
    resultType nested ⟨none, functions, false, false⟩
    arrow
  if nested.typed && place.resultTypes then typed true <|> typed false <|> arrow else arrow
  gaps
  arrowBody nested place

/-- Reads a function with an arrow and parameters in parentheses. -/
def arrowFunction (nested : Nested) (place : Place) (anyTarget : Bool) : Parser Unit :=
  construct .arrowFunction do
    whereTyped nested do typeParameters nested; gaps
    parameters nested anyTarget
    arrowTail nested place

/-- Reads a function with an arrow and one parameter that is only a name. -/
def namedArrow (nested : Nested) (place : Place) : Parser Unit :=
  construct .arrowFunction do
    wordAs .identifier
    plainGaps
    symbol "=>"
    gaps
    arrowBody nested place

def asyncArrow (nested : Nested) (place : Place) : Parser Unit :=
  construct .arrowFunction do
    asyncMark nested place.ending
    (do
      wordExcept ("function" :: Vocabulary.operatorWords nested.dialect)
      plainGaps
      symbol "=>"
      gaps
      arrowBody nested place)
    <|> do
      whereTyped nested do typeParameters nested; gaps
      parameters nested false
      arrowTail nested place

/-- Reads parentheses, or a function whose parameters stand in them. -/
def parenthesizedOrArrow (nested : Nested) (place : Place) : Parser Unit :=
  let goesOn (rest : Text) : Bool :=
    let after := Trivia.behind rest
    Lexeme.begins "=>" after || nested.typed && place.resultTypes && after.head? == some ':'
  unlessBetter (parenthesized nested) goesOn (arrowFunction nested place true)
    <|> arrowFunction nested place false

def wordConstruct? (name : Text) : Option Construct :=
  if name == "this".toList then some .this
  else if name == "super".toList then some .super
  else if name == "null".toList then some .null
  else if name == "true".toList then some .true_
  else if name == "false".toList then some .false_
  else if name == "undefined".toList then some .undefined
  else none

/-- Reads the word `import` where it is called or a member of it is asked for, or the properties of
the module itself. -/
def importOperand (nested : Nested) : Parser Unit :=
  (construct .importWord do
    keyword "import"
    check fun text =>
      let after := Trivia.behind text
      after.head? == some '(' || Lexeme.begins "?." after
        || nested.typed && after.head? == some '<')
  <|> construct .metaProperty do
    keyword "import"
    gaps
    symbol "."
    gaps
    keyword "meta"

def newTarget : Parser Unit :=
  construct .metaProperty do
    keyword "new"
    gaps
    symbol "."
    gaps
    keyword "target"

/-- Reads an operand that begins with a word and is neither a function with an arrow nor a `new`
expression, nor has an operator in front of it. -/
def wordOperand (nested : Nested) (place : Place) : Parser Unit := do
  let name ← wordAhead
  match wordConstruct? name with
  | some kind => wordAs kind
  | none =>
    if name == "function".toList then functionExpression nested place
    else if name == "class".toList then classExpression nested
    else if name == "import".toList then importOperand nested
    else if name == "async".toList then functionExpression nested place <|> wordAs .identifier
    else if name == "new".toList then
      newTarget <|> do
        require (Vocabulary.newIsName nested.dialect)
        wordAs .identifier
    else do
      check fun text => !Lexeme.isOneOf Vocabulary.operandWords (Lexeme.wordAt text)
      wordAs .identifier

/-- Reads an operand without links, operators, or arrows. -/
def primary (nested : Nested) (place : Place) : Parser Unit := do
  match (← ahead).head? with
  | none => Parser.fail
  | some c =>
    if c == '(' then parenthesized nested
    else if c == '[' then array nested
    else if c == '{' then object nested
    else if c == '\x60' then template nested
    else if c == '"' || c == '\'' then string
    else if c == '/' then construct .regex (token Lexeme.regex?)
    else if c == '@' then classExpression nested
    else if c == '.' || c.isDigit then number
    else wordOperand nested place

/-- Reads a name or a member of something, to be assigned to. -/
def target (nested : Nested) : Parser Unit :=
  provided isTarget <| grow (primary nested .bracket) fun object =>
    link nested object <|> do
      require nested.typed
      presenceMark

/-- Whether the class that `new` makes a value of begins. -/
def beginsConstructor (nested : Nested) (text : Text) : Bool :=
  let name := Lexeme.wordAt text
  if name.isEmpty then Lexeme.headIn "([\x7b\x60\"'/@" text || (Lexeme.number? text).isSome
  else !Lexeme.isOneOf (Vocabulary.operatorWords nested.dialect) name

/-- Reads a `new` expression. The class is named without calls, and the arguments may be left
out. Where types may be written `new` may also be a name. -/
def newOperand (nested : Nested) (place : Place) : Parser Unit := do
  let text ← ahead
  let behindWord := text.drop 3
  let after := Trivia.behindAll behindWord
  if nested.typed
      && (nested.isEnded place.ending behindWord || after.head? != some '.'
        && !beginsConstructor nested after) then wordOperand nested place
  else if after.head? == some '.' && !(after.drop 1).head?.any Char.isDigit then newTarget
  else
    construct .new do
      keyword "new"
      gaps
      (do
        require !nested.typed
        let again := Lexeme.wordAt (← ahead) == "new".toList
        require (again && (Trivia.behindAll ((← ahead).drop 3)).head? != some '.')
        nested.operand ⟨Operator.tightest, false⟩ .bracket)
      <|> grow (primary nested .bracket) (constructorLink nested)
      if nested.typed then do
        if (Trivia.behind (← ahead)).head? == some '<' then do plainGaps; typeArguments nested
        else pure ()
      else pure ()
      optional do plainGaps; arguments nested

def yieldOperand (nested : Nested) (place : Place) : Parser Unit :=
  construct .yield do
    keyword "yield"
    let text ← ahead
    let after := Trivia.behindAll text
    if nested.isEnded place.ending text then pure ()
    else if after.head? == some '*' then do
      gaps
      symbol "*"
      gaps
      nested.expression place
    else if Vocabulary.beginsOperand nested.dialect after then do
      gaps
      nested.expression place
    else pure ()

/-- Reads an assignment to a resource that is let go at the end of the block. -/
def usingOperand (nested : Nested) (place : Place) : Parser Unit :=
  construct .assignment do
    keyword "using"
    gaps
    nested.pattern true <|> parenthesized nested
    plainGaps
    equals
    gaps
    nested.expression place

/-- Reads a namespace where an expression is expected. -/
def namespaceOperand (nested : Nested) : Parser Unit :=
  construct .internalModule do
    keyword "namespace"
    gaps
    string <|> do
      word
      many do plainGaps; symbol "."; gaps; word
    optional do gaps; block nested .operand

def wordHead (nested : Nested) (place : Place) : Parser Unit := do
  let name ← wordAhead
  let behindWord := (← ahead).drop name.length
  let isWord (candidate : String) : Bool := name == candidate.toList
  if Lexeme.isOneOf ["typeof", "void", "delete"] name then
    construct .unary do
      word
      gaps
      nested.operand ⟨Operator.signLevel, false⟩ place
  else if isWord "await" then
    construct .await do
      word
      gaps
      nested.operand ⟨Operator.signLevel, true⟩ place
  else if isWord "yield" then yieldOperand nested place
  else if isWord "using" then usingOperand nested place
  else if Lexeme.begins "=>" (Trivia.behind behindWord)
      && !Lexeme.isOneOf (Vocabulary.takenWords nested.dialect) name then
    namedArrow nested place
  else if isWord "async" then
    asyncArrow nested place <|> wordOperand nested place
  else if isWord "new" then newOperand nested place
  else if nested.typed && isWord "namespace" then
    (do
      check fun _ => !nested.isEnded place.ending behindWord
      check fun _ => !Lexeme.isOneOf (Vocabulary.operatorWords nested.dialect)
        (Lexeme.wordAt (Trivia.behindAll behindWord))
      namespaceOperand nested)
    <|> wordAs .identifier
  else wordOperand nested place

def privateTest (nested : Nested) (place : Place) : Parser Unit :=
  construct .binary do
    privateName
    plainGaps
    require place.inOperator
    keyword "in"
    gaps
    nested.operand ⟨9, false⟩ place

/-- Reads an operand with the operators in front of it. -/
def head (nested : Nested) (place : Place) : Parser Unit := do
  let text ← ahead
  match text with
  | [] => Parser.fail
  | c :: rest =>
    if (c == '+' || c == '-') && rest.head? == some c then
      construct .update do
        token fun _ => some 2
        gaps
        nested.operand ⟨Operator.stepLevel, false⟩ place
    else if c == '!' || c == '~' || c == '-' || c == '+' then
      construct .unary do
        token fun _ => some 1
        gaps
        nested.operand ⟨Operator.signLevel, false⟩ place
    else if c == '(' then parenthesizedOrArrow nested place
    else if c == '[' then literalOrPattern nested place (array nested)
    else if c == '{' then literalOrPattern nested place (object nested)
    else if c == '<' then
      if nested.typed then arrowFunction nested place false <|> markup nested true
      else markup nested true
    else if c == '#' then privateTest nested place
    else if (Lexeme.wordAt text).isEmpty then primary nested place
    else wordHead nested place

/-- Reads an operand and what follows it that a level admits. -/
def operand (nested : Nested) (level : Level) (place : Place) : Parser Unit :=
  grow (head nested place) (tail nested level place)

def expression (nested : Nested) (place : Place) : Parser Unit := operand nested .any place

end FragmentLint.Grammar.Parser
