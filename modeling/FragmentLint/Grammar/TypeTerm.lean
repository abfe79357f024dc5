import FragmentLint.Grammar.TypeMember

/-!
Contract: reading the types of TSX.

A type is read as a flat run of operands and operators: how they group decides nothing about where
the type ends.
-/

namespace FragmentLint.Grammar.Parser

/-- Reads an operator between types. Where operators on values may follow, a longer sign is one of
those. -/
def typeOperator (place : TypePlace) : Parser Unit :=
  token fun text =>
    match text with
    | '|' :: rest =>
      if place.operators && Lexeme.headIn "|=" rest then none
      else if rest.head? == some '}' then none else some 1
    | '&' :: rest => if place.operators && Lexeme.headIn "&=" rest then none else some 1
    | _ => none

/-- Reads operators in front of the first type that they stand between. -/
def leadingOperators : Parser Unit :=
  many do
    check fun text => !Lexeme.begins "|\x7d" text
    anySymbol ["|", "&"]
    gaps

def tupleMember (nested : Nested) : Parser Unit :=
  (do
    wordExcept (Vocabulary.plainTypeWords ++ Vocabulary.typeOperatorWords)
    gaps
    optional do symbol "?"; gaps
    annotatedType nested .bracket)
  <|> (do
    symbol "..."
    gaps
    (do nested.pattern false; gaps; annotatedType nested .bracket) <|> nested.typeTerm .bracket)
  <|> do
    nested.typeTerm .bracket
    optional do gaps; symbol "?"

def tupleType (nested : Nested) : Parser Unit := do
  symbol "["
  optional <| listed (tupleMember nested) <|> do gaps; symbol ","
  gaps
  symbol "]"

/-- Reads parameters, an arrow, and the type of the result. -/
def functionType (nested : Nested) (place : TypePlace) : Parser Unit := do
  optional do typeParameters nested; gaps
  nested.parameters false
  gaps
  symbol "=>"
  gaps
  resultTerm nested { place with primary := false }

def constructorType (nested : Nested) (place : TypePlace) : Parser Unit := do
  optional do keyword "abstract"; gaps
  keyword "new"
  gaps
  optional do typeParameters nested; gaps
  nested.parameters true
  gaps
  symbol "=>"
  gaps
  nested.typeTerm { place with primary := false }

def templateType (nested : Nested) : Parser Unit := do
  symbol "\x60"
  many do
    token Lexeme.templateChars?
      <|> do
        symbol "$\x7b"
        gaps
        nested.typeTerm .bracket
        gaps
        symbol "\x7d"
  symbol "\x60"

/-- Reads members of a module that is named by a call of `import`. -/
def importedType (nested : Nested) : Parser Unit := do
  construct .importWord (keyword "import")
  let name : Parser Unit := do plainGaps; symbol "."; gaps; memberName
  many1 <| name <|> do plainGaps; arguments nested

/-- Reads a name with the members of values behind it, calls of them, and types that they are
applied to. -/
def queriedValue (nested : Nested) (place : TypePlace) : Parser Unit := do
  let member : Parser Unit := do
    plainGaps
    anySymbol ["?.", "."]
    gaps
    memberName
  let call : Parser Unit := do
    check fun text => (Trivia.behind text).head? == some '('
    unended nested.dialect place.ending
    plainGaps
    arguments nested
  let members : Parser Unit := many member
  word
  members
  many do call; many1 member
  optional <| call <|> do
    check fun text =>
      let after := Trivia.behind text
      after.head? == some '<' && !(place.operators && Lexeme.headIn "<=" (after.drop 1))
    plainGaps
    typeArguments nested

def typeQuery (nested : Nested) (place : TypePlace) : Parser Unit := do
  keyword "typeof"
  gaps
  queriedValue nested place

/-- Reads a name of a type, its members, and the types that it is applied to. -/
def namedType (nested : Nested) (place : TypePlace) : Parser Unit := do
  word
  many do plainGaps; symbol "."; gaps; word
  let after := Trivia.behind (← ahead)
  let applied := after.head? == some '<'
    && !(place.operators && Lexeme.headIn "<=" (after.drop 1))
  if applied then do plainGaps; typeArguments nested else pure ()

def signedNumber : Parser Unit := do
  optional do anySymbol ["-", "+"]; gaps
  number

/-- Reads a type that begins with a word. The value says whether brackets may follow it. -/
def wordType (nested : Nested) (place : TypePlace) : Parser Bool := do
  let name ← wordAhead
  let further : TypePlace := { place with primary := false }
  if Lexeme.isOneOf Vocabulary.plainTypeWords name then do
    word
    return true
  else if name == "typeof".toList then do
    typeQuery nested place
    return true
  else if name == "keyof".toList then do
    word
    gaps
    nested.typeTerm { place with primary := true }
    return false
  else if name == "unique".toList then do
    word
    gaps
    keyword "symbol"
    return true
  else if name == "infer".toList then do
    require !place.primary
    word
    gaps
    word
    optional do
      unended nested.dialect place.ending
      plainGaps
      keyword "extends"
      gaps
      nested.typeTerm further
    return false
  else if name == "readonly".toList then do
    require !place.primary
    word
    gaps
    nested.typeTerm further
    return false
  else if name == "new".toList || name == "abstract".toList then do
    require !place.primary
    constructorType nested place
    return false
  else if name == "import".toList then do
    require !place.primary
    importedType nested
    return false
  else do
    namedType nested place
    return true

/-- Reads a type without operators between types, brackets behind it left aside. The value says
whether there may be any. -/
def typeHead (nested : Nested) (place : TypePlace) : Parser Bool := do
  let between : Parser Bool := do
    symbol "("
    gaps
    nested.typeTerm .bracket
    gaps
    symbol ")"
    return true
  let function : Parser Bool := do
    require (place.functions && !place.primary)
    functionType nested place
    return false
  match (← ahead).head? with
  | none => Parser.fail
  | some c =>
    if c == '(' then function <|> between
    else if c == '<' then function
    else if c == '{' then do typeMembers nested; return true
    else if c == '[' then do tupleType nested; return true
    else if c == '\x60' then do templateType nested; return true
    else if c == '"' || c == '\'' then do string; return true
    else if c == '*' then do symbol "*"; return true
    else if c == '?' then do
      symbol "?"
      gaps
      nested.typeTerm { place with primary := true }
      return false
    else if c == '-' || c == '+' || c == '.' || c.isDigit then do signedNumber; return true
    else wordType nested place

def typeOperand (nested : Nested) (place : TypePlace) : Parser Unit := do
  if ← typeHead nested place then
    many do
      check fun text => (Trivia.behind text).head? == some '['
      unended nested.dialect place.ending
      plainGaps
      symbol "["
      gaps
      optional do nested.typeTerm .bracket; gaps
      symbol "]"
  else pure ()

def conditionalTail (nested : Nested) (place : TypePlace) : Parser Unit := do
  unended nested.dialect place.ending
  plainGaps
  keyword "extends"
  gaps
  nested.typeTerm .bracket
  gaps
  symbol "?"
  gaps
  nested.typeTerm .bracket
  gaps
  symbol ":"
  gaps
  nested.typeTerm { place with primary := false }

def typeTerm (nested : Nested) (place : TypePlace) : Parser Unit :=
  construct .typeExpression do
    leadingOperators
    typeOperand nested place
    many do
      plainGaps
      typeOperator place
      gaps
      leadingOperators
      typeOperand nested { place with primary := false }
    optional (conditionalTail nested place)

end FragmentLint.Grammar.Parser
