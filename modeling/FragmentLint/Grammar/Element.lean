import FragmentLint.Grammar.Generic

/-!
Contract: reading elements, fragments and what stands in them.

A closing tag need not repeat the name of its opening tag. White space and comments may stand
anywhere inside a tag except within its delimiters. Where types may be written, a tag that begins an
expression could be the head of a generic function, and some of the words in such a head are no
names in the tag either.
-/

namespace FragmentLint.Grammar.Parser

/-- Reads a pair of braces with at most one expression, or a spread, between them. -/
def braces (nested : Nested) : Parser Unit :=
  container do
    gaps
    optional (spread nested <|> expressions nested .bracket)
    gaps

/-- Reads an attribute: a name, or a name and a value. -/
def tagAttribute (nested : Nested) : Parser Unit :=
  attr do
    attributeName
    optional do
      gaps
      symbol "="
      gaps
      quoted Lexeme.value? <|> braces nested <|> nested.element

/-- Whether a name in a tag is one that types may be applied to. -/
def isGenericName (phrases : List Phrase) : Bool :=
  match phrases with
  | [.name (.simple name)] => !name.contains '-'
  | [.name (.member _ _ _ _)] => true
  | _ => false

/-- Whether a name in a tag that begins an expression rather belongs to the head of a generic
function. -/
def isGenericHead (phrases : List Phrase) (rest : Text) : Bool :=
  match phrases with
  | [.name (.simple name)] =>
    name == "const".toList
      || !name.contains '-' && Lexeme.wordAt (Trivia.behind rest) == "extends".toList
  | [.name (.qualified space _ _ suffix)] =>
    !space.contains '-'
      && Lexeme.isOneOf (Vocabulary.plainTypeWords ++ Vocabulary.typeOperatorWords) suffix
  | _ => false

/-- Reads the inside of an opening tag. Without a name there are no attributes. -/
def tagInside (nested : Nested) (inExpression : Bool) : Parser Unit := do
  gaps
  optional do
    let name ← reading tagName
    if nested.typed then do
      if inExpression then check fun text => !isGenericHead name text else pure ()
      let after := Trivia.behindAll (← ahead)
      if after.head? == some '<' then do
        require (isGenericName name)
        gaps
        typeArguments nested
      else pure ()
    else pure ()
    many do gaps; tagAttribute nested <|> braces nested
    gaps

/-- Reads what stands between the tags of an element. -/
def content (nested : Nested) : Parser Unit :=
  many <|
    token Lexeme.markupText?
      <|> token Lexeme.reference?
      <|> braces nested
      <|> (do
        check (Lexeme.begins "<!--")
        trivia true)
      <|> do
        check fun text => !Lexeme.begins "</" text
        nested.element

/-- Reads an element or a fragment. A tag that closes itself has a name, unless types may be
written. -/
def markup (nested : Nested) (inExpression : Bool) : Parser Unit := do
  check fun text => nested.typed || !beginsNamelessSelfClosing text
  element (tagInside nested inExpression) (content nested) do
    gaps
    optional do tagName; gaps
where
  /-- Whether nothing but white space and comments stands between `<` and `/>`. -/
  beginsNamelessSelfClosing (text : Text) : Bool :=
    match text with
    | '<' :: rest => Lexeme.begins "/>" (Trivia.behindAll rest)
    | _ => false

end FragmentLint.Grammar.Parser
