import FragmentLint.Grammar.Module

/-!
Contract: reading statements.

A statement that needs an end takes its semicolon along. Where the end is implied, the comments in
front of it belong to the statement and those behind it do not.
-/

namespace FragmentLint.Grammar.Parser

/-- Reads expressions and the end of the statement. -/
def expressionStatement (nested : Nested) : Parser Unit :=
  construct .expressionStatement do
    expressions nested .statement
    semicolon nested.dialect .operand

/-- Reads a statement with a condition in front of it. -/
def ifStatement (nested : Nested) : Parser Unit :=
  construct .ifStatement do
    keyword "if"
    gaps
    parenthesized nested
    gaps
    nested.statement
    let after := Trivia.behindAll (← ahead)
    if Lexeme.wordAt after == "else".toList then do
      gaps
      construct .elseClause do
        keyword "else"
        gaps
        nested.statement
    else pure ()

/-- Reads the head of a loop over the members of a value, in its parentheses. -/
def forInHead (nested : Nested) : Parser Unit := do
  symbol "("
  gaps
  let bound : Parser Unit := destructuringPattern nested true <|> wordAs .identifier
  let text ← ahead
  let second := Trivia.behindAll (text.drop 3)
  let declares := Lexeme.headIn "\x7b[" second
    || (Lexeme.word? second).isSome
      && !Lexeme.isOneOf ("of" :: Vocabulary.operatorWords nested.dialect) (Lexeme.wordAt second)
  let name := Lexeme.wordAt text
  if name == "var".toList then do
    keyword "var"
    gaps
    bound
    optional do gaps; initializer nested { Place.bracket with inOperator := false }
  else if name == "const".toList || name == "let".toList && declares then do
    anyKeyword ["const", "let"]
    gaps
    bound
    optional (impliedEnd nested.dialect .bare)
  else pattern nested true <|> parenthesized nested
  plainGaps
  anyKeyword ["in", "of"]
  gaps
  expressions nested .bracket
  plainGaps
  symbol ")"

def forInStatement (nested : Nested) : Parser Unit :=
  construct .forInStatement do
    keyword "for"
    gaps
    optional do keyword "await"; gaps
    forInHead nested
    gaps
    nested.statement

/-- Reads a loop with a start, a condition and a step. -/
def forStatement (nested : Nested) : Parser Unit :=
  let expressionsUpTo (mark : String) : Parser Unit :=
    symbol mark <|> do
      expressions nested .bracket
      plainGaps
      symbol mark
  construct .forStatement do
    keyword "for"
    gaps
    symbol "("
    gaps
    if beginsDeclaration nested none (← ahead) then variableDeclaration nested
    else expressionsUpTo ";"
    gaps
    expressionsUpTo ";"
    gaps
    expressionsUpTo ")"
    gaps
    nested.statement

def anyFor (nested : Nested) : Parser Unit := do
  let overMembers ← finds do
    keyword "for"
    gaps
    optional do keyword "await"; gaps
    forInHead nested
  if overMembers then forInStatement nested else forStatement nested

def whileStatement (nested : Nested) : Parser Unit :=
  construct .whileStatement do
    keyword "while"
    gaps
    parenthesized nested
    gaps
    nested.statement

def doStatement (nested : Nested) : Parser Unit :=
  construct .doStatement do
    keyword "do"
    gaps
    nested.statement
    gaps
    keyword "while"
    gaps
    parenthesized nested
    optional (semicolon nested.dialect .bare)

def switchStatement (nested : Nested) : Parser Unit :=
  let statements : Parser Unit :=
    many do
      gaps
      check fun text => !Lexeme.isOneOf ["case", "default"] (Lexeme.wordAt text)
      nested.statement
  construct .switchStatement do
    keyword "switch"
    gaps
    parenthesized nested
    gaps
    construct .switchBody do
      symbol "\x7b"
      many do
        gaps
        (construct .switchCase do
          keyword "case"
          gaps
          beforeColon nested (expressions nested)
          statements)
        <|> construct .switchDefault do
          keyword "default"
          gaps
          symbol ":"
          statements
      gaps
      symbol "\x7d"

def tryStatement (nested : Nested) : Parser Unit :=
  let handled : Parser Unit := construct .catchClause do
    keyword "catch"
    gaps
    optional do
      symbol "("
      gaps
      destructuringPattern nested true <|> wordAs .identifier
      whereTyped nested do gaps; annotatedType nested .bracket
      gaps
      symbol ")"
      gaps
    block nested .bare
  let finished : Parser Unit := construct .finallyClause do
    keyword "finally"
    gaps
    block nested .bare
  let clause (name : String) (inner : Parser Unit) : Parser Unit := do
    let after := Trivia.behindAll (← ahead)
    if Lexeme.wordAt after == name.toList then do gaps; inner else pure ()
  construct .tryStatement do
    keyword "try"
    gaps
    block nested .bare
    clause "catch" handled
    clause "finally" finished

/-- Reads a statement that looks names up in a value. -/
def withStatement (nested : Nested) : Parser Unit :=
  construct .withStatement do
    keyword "with"
    gaps
    parenthesized nested
    gaps
    nested.statement

def jump (nested : Nested) (kind : Construct) (name : String) : Parser Unit :=
  construct kind do
    keyword name
    optional do
      unended nested.dialect (some .bare)
      gaps
      wordAs .identifier
    semicolon nested.dialect .bare

/-- Reads a statement that returns, with or without a value. -/
def returnStatement (nested : Nested) : Parser Unit :=
  construct .returnStatement do
    keyword "return"
    let text ← ahead
    let after := Trivia.behindAll text
    if nested.isEnded (some .bare) text || after.head? == some ';' then
      semicolon nested.dialect .bare
    else do
      gaps
      expressions nested .statement
      semicolon nested.dialect .operand

def throwStatement (nested : Nested) : Parser Unit :=
  construct .throwStatement do
    keyword "throw"
    gaps
    expressions nested .statement
    semicolon nested.dialect .operand

def labeledStatement (nested : Nested) : Parser Unit :=
  construct .labeledStatement do
    word
    gaps
    symbol ":"
    gaps
    nested.statement

/-- Reads a declaration, or the expression that it turns out to be the beginning of. -/
def declarationStatement (nested : Nested) : Parser Unit :=
  let goesOn (rest : Text) : Bool :=
    !nested.isEnded (some .operand) rest
      && Vocabulary.beginsContinuation nested.dialect (Trivia.behind rest)
  do
    let text ← ahead
    let isValue := text.head? == some '@'
      || Lexeme.isOneOf ["function", "class", "async"] (Lexeme.wordAt text)
    unlessBetter (declaration nested (some .operand) .operand) (fun rest => isValue && goesOn rest)
      (expressionStatement nested)

def decoratedStatement (nested : Nested) : Parser Unit := do
  let after := Trivia.behindAll (behindDecorators nested (← ahead))
  if Lexeme.wordAt after == "export".toList then exportStatement nested
  else if beginsDeclaration nested (some .operand) after then declarationStatement nested
  else expressionStatement nested

def wordStatement (nested : Nested) : Parser Unit := do
  let text ← ahead
  let name := Lexeme.wordAt text
  let isWord (candidate : String) : Bool := name == candidate.toList
  let label := (Trivia.behindAll (text.drop name.length)).head? == some ':'
    && !Lexeme.isOneOf (Vocabulary.takenWords nested.dialect) name
  if isWord "if" then ifStatement nested
  else if isWord "for" then anyFor nested
  else if isWord "while" then whileStatement nested
  else if isWord "do" then doStatement nested
  else if isWord "switch" then switchStatement nested
  else if isWord "try" then tryStatement nested
  else if isWord "with" then withStatement nested
  else if isWord "break" then jump nested .breakStatement "break"
  else if isWord "continue" then jump nested .continueStatement "continue"
  else if isWord "debugger" then
    construct .debuggerStatement do keyword "debugger"; semicolon nested.dialect .bare
  else if isWord "return" then returnStatement nested
  else if isWord "throw" then throwStatement nested
  else if beginsExport nested text then exportStatement nested
  else if beginsImport nested text then importStatement nested
  else if beginsDeclaration nested (some .operand) text then declarationStatement nested
  else if label then labeledStatement nested
  else expressionStatement nested

/-- Reads a statement. A brace begins an object if its first member could not begin a statement and
the whole can be read as an expression; otherwise it begins a block. -/
def statement (nested : Nested) : Parser Unit := do
  let text ← ahead
  match text.head? with
  | none => Parser.fail
  | some c =>
    if c == '{' then
      if ← finds (beginsObject nested) then expressionStatement nested <|> block nested .bare
      else block nested .bare
    else if c == ';' then construct .emptyStatement (symbol ";")
    else if c == '@' then decoratedStatement nested
    else if (Lexeme.wordAt text).isEmpty then expressionStatement nested
    else wordStatement nested

end FragmentLint.Grammar.Parser
