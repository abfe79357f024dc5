import FragmentLint.Grammar.Nested

/-!
Contract: reading literals, the keys of properties, and lists of values.

A template and a key in brackets hold expressions; everything else here is one token.
-/

namespace FragmentLint.Grammar.Parser

def privateName : Parser Unit :=
  construct .privatePropertyIdentifier do symbol "#"; word

def number : Parser Unit := construct .number (token Lexeme.number?)

def string : Parser Unit := construct .string (token Lexeme.string?)

def template (nested : Nested) : Parser Unit :=
  construct .templateString do
    symbol "\x60"
    many <| token Lexeme.templateChars? <|> token Lexeme.templateEscape?
      <|> construct .templateSubstitution do
        symbol "$\x7b"
        gaps
        expressions nested .bracket
        plainGaps
        symbol "\x7d"
    symbol "\x60"

def propertyName (nested : Nested) : Parser Unit :=
  wordAs .propertyIdentifier <|> string <|> number <|> privateName
    <|> construct .computedPropertyName do
      symbol "["
      gaps
      nested.expression .bracket
      plainGaps
      symbol "]"

def memberName : Parser Unit := wordAs .propertyIdentifier <|> privateName

def initializer (nested : Nested) (place : Place) : Parser Unit := do
  equals
  gaps
  nested.expression place

/-- Reads the members of a value that are taken over one by one. -/
def spread (nested : Nested) : Parser Unit :=
  construct .spreadElement do
    symbol "..."
    gaps
    nested.expression .bracket

/-- Reads arguments of a call or a `new` expression. -/
def arguments (nested : Nested) : Parser Unit :=
  construct .arguments do
    symbol "("
    sparse (spread nested <|> nested.expression .bracket)
    symbol ")"

def index (nested : Nested) : Parser Unit := do
  symbol "["
  gaps
  expressions nested .bracket
  plainGaps
  symbol "]"

def memberLink (nested : Nested) : Parser Construct :=
  (do
    plainGaps
    symbol "."
    gaps
    memberName
    return .member)
  <|> do
    plainGaps
    index nested
    return .subscript

end FragmentLint.Grammar.Parser
