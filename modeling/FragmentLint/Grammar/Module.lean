import FragmentLint.Grammar.Declaration

/-!
Contract: reading what a module takes in and gives out.
-/

namespace FragmentLint.Grammar.Parser

/-- Reads the name of something that a module gives out or takes in. -/
def moduleName : Parser Unit := word <|> string

/-- Reads the new name of something that a module gives out or takes in. -/
def renamed (name : Parser Unit) : Parser Unit := do
  gaps
  keyword "as"
  gaps
  name

/-- Reads names in braces, each read by `specifier`. -/
def moduleNames (specifier : Parser Unit) : Parser Unit :=
  construct .exportClause do
    symbol "\x7b"
    optional <| listed specifier <|> do gaps; symbol ","
    gaps
    symbol "\x7d"

def exportSpecifier (nested : Nested) : Parser Unit := do
  let name ← wordAhead
  if nested.typed && Lexeme.isOneOf ["type", "typeof"] name then do word; gaps else pure ()
  moduleName
  optional (renamed moduleName)

/-- Reads one name that a module takes in. With types, a mark may stand in front of it; the mark is
itself the name if a new name or nothing follows. -/
def importSpecifier (nested : Nested) : Parser Unit := do
  let text ← ahead
  let name := Lexeme.wordAt text
  let after := Trivia.behindAll (text.drop name.length)
  let second := Lexeme.wordAt after
  let marked := nested.typed
    && (name == "typeof".toList
      || name == "type".toList && second != "as".toList
        && (!second.isEmpty || Lexeme.headIn "\"'" after))
  if marked then do word; gaps else pure ()
  (do
    word
    optional (renamed word))
    <|> do
      string
      renamed word

def fromClause : Parser Unit := do
  keyword "from"
  gaps
  string

def importAttribute (nested : Nested) : Parser Unit := optional do
  unended nested.dialect (some .bare)
  gaps
  construct .importAttribute do
    keyword "with"
    gaps
    object nested

def namespaceImport : Parser Unit := do
  symbol "*"
  renamed word

/-- Reads what a module takes in. The module itself may take the place of a namespace, named by
`require`. -/
def importStatement (nested : Nested) : Parser Unit :=
  let group : Parser Unit := namespaceImport <|> moduleNames (importSpecifier nested)
  let sourced (taken : List String) : Parser Unit := do
    construct .importClause do
      group <|> do
        wordExcept taken
        optional do gaps; symbol ","; gaps; group
    gaps
    fromClause
    importAttribute nested
  let required : Parser Unit := do
    wordExcept ["typeof"]
    gaps
    symbol "="
    gaps
    keyword "require"
    gaps
    symbol "("
    gaps
    string
    gaps
    symbol ")"
    importAttribute nested
  let bare : Parser Unit := do
    string
    importAttribute nested
  let ended (inner : Parser Unit) : Parser Unit := do
    inner
    semicolon nested.dialect .bare
  let alias_ : Parser Unit := do
    let text ← ahead
    let after := Trivia.behindAll (text.drop (Lexeme.wordAt text).length)
    let target := Trivia.behindAll (after.drop 1)
    require (after.head? == some '=' && Lexeme.wordAt target != "require".toList)
    importAlias nested
  construct .importStatement do
    keyword "import"
    gaps
    if nested.typed then
      (do
        anyKeyword ["type", "typeof"]
        gaps
        ended (sourced ["from", "typeof"] <|> required <|> bare))
      <|> ended (sourced ["typeof"] <|> bare <|> required)
      <|> alias_
    else ended (sourced [] <|> bare)

/-- Whether an import statement begins, rather than an expression. -/
def beginsImport (nested : Nested) (text : Text) : Bool :=
  let after := Trivia.behindAll (text.drop 6)
  Lexeme.wordAt text == "import".toList && !Lexeme.headIn "(.?" after
    && !(nested.typed && after.head? == some '<')

/-- Whether an export statement begins, rather than an expression. -/
def beginsExport (nested : Nested) (text : Text) : Bool :=
  let behindWord := text.drop 6
  let after := Trivia.behindAll behindWord
  let second := Lexeme.wordAt after
  Lexeme.wordAt text == "export".toList && !nested.isEnded (some .operand) behindWord
    && (Lexeme.headIn "*\x7b@" after || second == "default".toList
      || beginsDeclaration nested none after
      || nested.typed
        && (Vocabulary.beginsEquals after || Lexeme.isOneOf ["as", "type", "import"] second))

/-- Reads a declaration or an expression that is given out without a name. -/
def defaultExport (nested : Nested) : Parser Unit := do
  keyword "default"
  gaps
  let value : Parser Unit := do
    nested.expression .statement
    semicolon nested.dialect .operand
  let goesOn (rest : Text) : Bool :=
    !nested.isEnded (some .operand) rest
      && Vocabulary.beginsContinuation nested.dialect (Trivia.behind rest)
  let text ← ahead
  let undecorated := Trivia.behindAll (behindDecorators nested text)
  if beginsDeclaration nested (some .operand) undecorated then
    unlessBetter (declaration nested (some .operand) .operand) goesOn value
  else value

def exportStatement (nested : Nested) : Parser Unit :=
  let source : Parser Unit := optional do
    unended nested.dialect (some .bare)
    gaps
    fromClause
  let names : Parser Unit := moduleNames (exportSpecifier nested)
  construct .exportStatement do
    decorators nested
    keyword "export"
    gaps
    let text ← ahead
    let name := Lexeme.wordAt text
    if text.head? == some '*' then do
      symbol "*"
      optional (renamed moduleName)
      gaps
      fromClause
      semicolon nested.dialect .bare
    else if text.head? == some '{' then do
      names
      source
      semicolon nested.dialect .bare
    else if name == "default".toList then defaultExport nested
    else if nested.typed && text.head? == some '=' then do
      symbol "="
      gaps
      nested.expression .statement
      semicolon nested.dialect .operand
    else if nested.typed && name == "as".toList then do
      keyword "as"
      gaps
      keyword "namespace"
      gaps
      word
      semicolon nested.dialect .bare
    else if nested.typed && name == "import".toList then do
      keyword "import"
      gaps
      importAlias nested
    else if nested.typed && name == "type".toList
        && (Trivia.behindAll (text.drop 4)).head? == some '{' then do
      keyword "type"
      gaps
      names
      source
      semicolon nested.dialect .bare
    else nested.declaration

end FragmentLint.Grammar.Parser
