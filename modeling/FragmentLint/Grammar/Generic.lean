import FragmentLint.Grammar.Literal

/-!
Contract: reading the parameters and arguments of generics, and the heads of functions.

The type of the result of a function may be a predicate on one of its parameters; nowhere else may a
predicate stand.
-/

namespace FragmentLint.Grammar.Parser

def typeArguments (nested : Nested) : Parser Unit :=
  construct .typeArguments do
    symbol "<"
    listed (nested.typeTerm .bracket)
    gaps
    symbol ">"

def typeParameters (nested : Nested) : Parser Unit :=
  let parameter : Parser Unit := do
    optional do keyword "const"; gaps
    wordExcept ["const"]
    optional do
      gaps
      keyword "extends" <|> symbol ":"
      gaps
      nested.typeTerm .bracket
    optional do gaps; symbol "="; gaps; nested.typeTerm .bracket
  construct .typeParameters do
    symbol "<"
    listed parameter
    gaps
    symbol ">"

def predicateTail (nested : Nested) (place : TypePlace) : Parser Unit := do
  unended nested.dialect place.ending
  gaps
  keyword "is"
  gaps
  nested.typeTerm place

/-- Reads the type of the result of a function, or a predicate. -/
def resultTerm (nested : Nested) (place : TypePlace) : Parser Unit := do
  let name ← wordAhead
  let asserted : List String := Vocabulary.predicateWords
  if name == "asserts".toList then do
    keyword "asserts"
    gaps
    let subject ← wordAhead
    word
    if Lexeme.isOneOf asserted subject && subject != "this".toList then
      predicateTail nested place
    else optional (predicateTail nested place)
  else
    let taken := Vocabulary.typeOperatorWords ++ ["true", "false", "null", "undefined", "const"]
    (do
      wordExcept taken
      predicateTail nested place)
    <|> nested.typeTerm place

/-- Reads a colon and the type of the result of a function. -/
def resultType (nested : Nested) (place : TypePlace) : Parser Unit :=
  construct .annotatedType do
    symbol ":"
    gaps
    resultTerm nested place

/-- Reads parameters with what types may stand around them. -/
def signature (nested : Nested) (ending : Option Ending) : Parser Unit := do
  whereTyped nested do typeParameters nested; gaps
  nested.parameters true
  whereTyped nested do gaps; resultType nested (.upTo ending)

end FragmentLint.Grammar.Parser
