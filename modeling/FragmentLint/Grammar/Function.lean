import FragmentLint.Grammar.Pattern

/-!
Contract: reading functions that are written with a word, and methods.

A function without a body is a signature, which only types give a use.
-/

namespace FragmentLint.Grammar.Parser

def asyncMark (nested : Nested) (ending : Option Ending) : Parser Unit := do
  keyword "async"
  unended nested.dialect ending
  gaps

/-- Reads a function up to its name. The value says whether there was a star. -/
def functionHead (nested : Nested) (ending : Option Ending) : Parser Bool := do
  optional (asyncMark nested ending)
  keyword "function"
  gaps
  (do symbol "*"; gaps; return true) <|> return false

def functionExpression (nested : Nested) (place : Place) : Parser Unit :=
  discard <| constructBy (fun star => if star then .generatorFunction else .functionExpression) do
    let star ← functionHead nested place.ending
    optional do wordAs .identifier; gaps
    signature nested none
    gaps
    block nested .operand
    return star

/-- Reads a function as a declaration. The block may end like a statement as `ending` says. -/
def functionDeclaration (nested : Nested) (start : Option Ending) (ending : Ending) :
    Parser Unit :=
  discard <| constructBy id do
    let star ← functionHead nested start
    wordAs .identifier
    gaps
    signature nested (some .signature)
    (do
      gaps
      next '{'
      block nested ending
      optional (impliedEnd nested.dialect ending)
      return if star then .generatorFunctionDeclaration else .functionDeclaration)
    <|> do
      require (nested.typed && !star)
      semicolon nested.dialect .signature
      return .functionSignature

/-- Reads a method of an object from its modifiers on. -/
def methodTail (nested : Nested) : Parser Unit := do
  let marks ← modifiers nested false none
  require (Modifier.fitMethod nested.dialect marks)
  propertyName nested
  whereTyped nested do gaps; symbol "?"
  gaps
  signature nested none
  gaps
  block nested .bare

def method (nested : Nested) : Parser Unit :=
  construct .methodDefinition do
    if nested.typed then pure () else decorators nested
    methodTail nested

end FragmentLint.Grammar.Parser
