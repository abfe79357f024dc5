import FragmentLint.Grammar.Function

/-!
Contract: reading classes.

Where types may be written a field of a class is a public field definition and spans its decorators;
without types it is a field definition. Neither includes the end of the statement. A method spans
its decorators only without types.
-/

namespace FragmentLint.Grammar.Parser

def staticBlock (nested : Nested) : Parser Unit :=
  construct .classStaticBlock do
    keyword "static"
    gaps
    block nested .bare

/-- What a member of a class is, which decides how it may end. -/
inductive MemberKind where
  /-- A method with a body; a semicolon may follow. -/
  | method
  | methodSignature
  /-- A field whose last part is a value. -/
  | valuedField
  | bareField
deriving DecidableEq, Repr

namespace MemberKind

def construct (typed : Bool) : MemberKind → Construct
  | method => .methodDefinition
  | methodSignature => .methodSignature
  | valuedField => if typed then .publicFieldDefinition else .fieldDefinition
  | bareField => if typed then .publicFieldDefinition else .fieldDefinition

end MemberKind

/-- Reads a member of a class with a key: a method, the signature of one, or a field. -/
def keyedClassMember (nested : Nested) : Parser MemberKind := do
  let dialect := nested.dialect
  let here : Option Ending := if nested.typed then some .bare else none
  let marks ← modifiers nested true (some .bare)
  check fun text =>
    !Lexeme.isOneOf (Modifier.neverKeys dialect marks) (Lexeme.wordAt text)
  propertyName nested
  let mark ← (do
      require nested.typed
      check fun text => !nested.isEnded here text
      gaps
      (do symbol "?"; return '?') <|> do
        check Vocabulary.beginsBang
        symbol "!"
        return '!')
    <|> return ' '
  let text ← ahead
  let after := Trivia.behindAll text
  let callable := mark != '!'
    && (after.head? == some '(' || nested.typed && after.head? == some '<')
    && !nested.isEnded here text
  if callable then do
    gaps
    signature nested (some .signature)
    (do
      require (Modifier.fitMethod dialect marks)
      gaps
      next '{'
      block nested .bare
      return .method)
    <|> do
      require (nested.typed && (Modifier.fitMethod dialect marks
        || Modifier.fitAbstractMethod marks))
      return .methodSignature
  else do
    require (Modifier.fitField dialect marks)
    whereTyped nested do
      check fun text => !nested.isEnded here text
      gaps
      annotatedType nested (.upTo (some .bare))
    (do
      unended dialect (some .bare)
      gaps
      initializer nested .statement
      return .valuedField)
    <|> return .bareField

def classMember (nested : Nested) : Parser Unit := do
  let separator (ending : Ending) : Parser Unit :=
    (do require nested.typed; gaps; symbol ",") <|> semicolon nested.dialect ending
  let keyed : Parser Unit := do
    let kind ← constructBy (MemberKind.construct nested.typed) do
      decorators nested
      keyedClassMember nested
    match kind with
    | .method => whereTyped nested (semicolon nested.dialect .bare)
    | .methodSignature => separator .signature
    | .valuedField => separator .operand
    | .bareField => separator .bare
  symbol ";"
    <|> staticBlock nested
    <|> (do require nested.typed; indexSignature nested; separator .bare)
    <|> keyed

def classBody (nested : Nested) : Parser Unit :=
  construct .classBody do
    symbol "\x7b"
    many do gaps; classMember nested
    gaps
    symbol "\x7d"

/-- The surroundings of the value that a class extends. -/
def Place.extended : Place := { Place.bracket with bodyFollows := true }

def heritage (nested : Nested) : Parser Unit :=
  let implemented : Parser Unit := construct .implementsClause do
    keyword "implements"
    gaps
    nested.typeTerm .bracket
    many do gaps; symbol ","; gaps; nested.typeTerm .bracket
  let extended : Parser Unit := do
    keyword "extends"
    gaps
    nested.expression Place.extended
  construct .classHeritage <|
    if nested.typed then
      (do
        construct .extendsClause do
          extended
          many do plainGaps; symbol ","; gaps; nested.expression Place.extended
        optional do gaps; implemented)
      <|> implemented
    else extended

def classTail (nested : Nested) (named : Bool) : Parser Unit := do
  let name : Parser Unit := do
    check fun text => !Lexeme.isOneOf (if nested.typed then ["extends", "implements"]
      else ["extends"]) (Lexeme.wordAt text)
    wordAs .identifier
    gaps
  keyword "class"
  gaps
  if named then name else optional name
  whereTyped nested do typeParameters nested; gaps
  optional do heritage nested; gaps
  classBody nested

def classExpression (nested : Nested) : Parser Unit :=
  construct .classExpression do
    decorators nested
    classTail nested false

/-- Reads a class as a declaration. The body may end like a statement as `ending` says. -/
def classDeclaration (nested : Nested) (ending : Ending) : Parser Unit :=
  discard <| constructBy id do
    decorators nested
    let kind ← (do
        require nested.typed
        keyword "abstract"
        gaps
        return .abstractClassDeclaration)
      <|> return .classDeclaration
    classTail nested true
    if kind == Construct.classDeclaration then optional (impliedEnd nested.dialect ending)
    else pure ()
    return kind

end FragmentLint.Grammar.Parser
