import FragmentLint.Grammar.Expression

/-!
Contract: reading declarations.

Most words that begin a declaration are names too, so what follows the word decides. Once it is
decided for a declaration, nothing else is tried.

Owns: declarations of variables, functions, classes, types and namespaces, and the decision for
them.
Does not own: what a module takes in and gives out.
-/

namespace FragmentLint.Grammar.Parser

/-- Reads one name of a declaration and its value. The value read says whether there is one. -/
def declarator (nested : Nested) (place : Place) : Parser Bool :=
  let goesOn : Parser Unit := do
    unended nested.dialect (some .bare)
    gaps
  constructBy (fun _ => .variableDeclarator) do
    let named := !Lexeme.headIn "\x7b[" (← ahead)
    if named then wordAs .identifier else destructuringPattern nested true
    whereTyped nested do
      goesOn
      optional do require named; check Vocabulary.beginsBang; symbol "!"; gaps
      annotatedType nested (.upTo (some .bare))
    (do
      goesOn
      initializer nested place
      return true) <|> return false

/-- Reads further names as long as there are any; `valued` says whether the last one has a value. -/
def declaratorsAlong (nested : Nested) (valued : Bool) : (bound : Text) → Parser Bool
  | [] => return valued
  | _ :: bound =>
    (do
      plainGaps
      symbol ","
      gaps
      let last ← declarator nested .statement
      declaratorsAlong nested last bound) <|> return valued

def variableDeclaration (nested : Nested) : Parser Unit := do
  let name ← wordAhead
  construct (if name == "var".toList then .variableDeclaration else .lexicalDeclaration) do
    anyKeyword ["var", "let", "const"]
    gaps
    let first ← declarator nested .statement
    let valued ← declaratorsAlong nested first (← ahead)
    semicolon nested.dialect (if valued then .operand else .bare)

def dottedName : Parser Unit := do
  word
  many do plainGaps; symbol "."; gaps; word

def enumBody (nested : Nested) : Parser Unit :=
  let member : Parser Unit := grow (propertyName nested) fun _ => do
    gaps
    initializer nested .bracket
    return .enumAssignment
  construct .enumBody do
    symbol "\x7b"
    optional (listed member)
    gaps
    symbol "\x7d"

def enumDeclaration (nested : Nested) : Parser Unit :=
  construct .enumDeclaration do
    optional do keyword "const"; gaps
    keyword "enum"
    gaps
    word
    gaps
    enumBody nested

def typeAlias (nested : Nested) : Parser Unit :=
  construct .typeAliasDeclaration do
    keyword "type"
    gaps
    word
    gaps
    optional do typeParameters nested; gaps
    symbol "="
    gaps
    nested.typeTerm (.upTo (some .bare))
    semicolon nested.dialect .bare

def interfaceDeclaration (nested : Nested) : Parser Unit :=
  construct .interfaceDeclaration do
    keyword "interface"
    gaps
    word
    gaps
    optional do typeParameters nested; gaps
    optional do
      keyword "extends"
      gaps
      namedType nested .bracket
      many do gaps; symbol ","; gaps; namedType nested .bracket
      gaps
    construct .interfaceBody (typeMembers nested)

def namespaceTail (nested : Nested) (ending : Ending) : Parser Unit := do
  gaps
  string <|> dottedName
  optional do gaps; block nested ending

/-- Reads the name under which parts of another namespace are known. -/
def importAlias (nested : Nested) : Parser Unit := do
  wordExcept []
  gaps
  symbol "="
  gaps
  dottedName
  semicolon nested.dialect .bare

/-- Whether a function with a name begins with the word `function`. -/
def beginsNamedFunction (text : Text) : Bool :=
  let after := Trivia.behindAll (text.drop 8)
  let name := if after.head? == some '*' then Trivia.behindAll (after.drop 1) else after
  Lexeme.wordAt text == "function".toList && (Lexeme.word? name).isSome

/-- Whether a class with a name begins with the word `class`. -/
def beginsNamedClass (dialect : Dialect) (text : Text) : Bool :=
  let name := Lexeme.wordAt (Trivia.behindAll (text.drop 5))
  Lexeme.wordAt text == "class".toList && !name.isEmpty && name != "extends".toList
    && (dialect == .javascript || name != "implements".toList)

def behindDecorators (nested : Nested) (text : Text) : Text :=
  match decorators nested text with
  | some parsed => parsed.rest
  | none => text

/-- Whether a declaration begins. A word that may be a name is one if a statement may end behind it
as `start` says, and does. -/
def beginsDeclaration (nested : Nested) (start : Option Ending) (text : Text) : Bool :=
  let name := Lexeme.wordAt text
  let behindWord := text.drop name.length
  let after := Trivia.behindAll behindWord
  let second := Lexeme.wordAt after
  let named := !second.isEmpty
    && !Lexeme.isOneOf (Vocabulary.operatorWords nested.dialect) second
  let goesOn := !nested.isEnded start behindWord
  let isWord (candidate : String) : Bool := name == candidate.toList
  let typed := nested.typed
  isWord "var" || isWord "const"
    || isWord "let" && goesOn && (named || Lexeme.headIn "\x7b[" after)
    || beginsNamedFunction text || beginsNamedClass nested.dialect text
    || isWord "async" && goesOn && beginsNamedFunction after
    || typed && (isWord "interface" || isWord "enum" || isWord "abstract")
    || typed && isWord "type" && goesOn && named
    || typed && (isWord "namespace" || isWord "module") && goesOn
      && (named || Lexeme.headIn "\"'" after)
    || typed && isWord "declare" && goesOn
      && (after.head? == some '@' || Lexeme.isOneOf ["type", "import", "namespace", "var", "let",
        "const", "class", "async", "function", "declare", "module", "abstract", "interface", "enum",
        "global"] second)

/-- Reads a declaration. A word that may be a name is one if a statement may end behind it as
`start` says, and does; the body of a function or a class ends as `ending` says. -/
def declaration (nested : Nested) (start : Option Ending) (ending : Ending) : Parser Unit := do
  let text ← ahead
  check fun text => text.head? == some '@' || beginsDeclaration nested start text
  let name := Lexeme.wordAt text
  let isWord (candidate : String) : Bool := name == candidate.toList
  if text.head? == some '@' || isWord "class" || isWord "abstract" then
    classDeclaration nested ending
  else if isWord "function" || isWord "async" then functionDeclaration nested start ending
  else if isWord "const" && nested.typed
      && Lexeme.wordAt (Trivia.behindAll (text.drop 5)) == "enum".toList then
    enumDeclaration nested
  else if isWord "var" || isWord "let" || isWord "const" then variableDeclaration nested
  else if isWord "type" then typeAlias nested
  else if isWord "interface" then interfaceDeclaration nested
  else if isWord "enum" then enumDeclaration nested
  else if isWord "namespace" then
    construct .internalModule do keyword "namespace"; namespaceTail nested ending
  else if isWord "module" then
    construct .module do keyword "module"; namespaceTail nested ending
  else
    construct .ambientDeclaration do
      keyword "declare"
      gaps
      (do
        keyword "global"
        gaps
        block nested .bare)
      <|> (do
        keyword "module"
        gaps
        symbol "."
        gaps
        word
        gaps
        symbol ":"
        gaps
        nested.typeTerm (.upTo (some .bare))
        semicolon nested.dialect .bare)
      <|> (do
        keyword "import"
        gaps
        importAlias nested)
      <|> nested.declaration

end FragmentLint.Grammar.Parser
