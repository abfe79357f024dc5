import FragmentLint.Grammar.Generic
import FragmentLint.Grammar.Modifier

/-!
Contract: reading the members of object types.

Exactly one comma, semicolon, or implied end of a statement stands between two members.
-/

namespace FragmentLint.Grammar.Parser

/-- Reads what is in brackets in front of the type of an index signature: a name and the type of the
index, or a name that runs through the keys of a type. -/
def indexHead (nested : Nested) : Parser Unit := do
  symbol "["
  gaps
  wordExcept Vocabulary.operandWords
  gaps
  (do symbol ":"; gaps; nested.typeTerm .bracket)
    <|> do
      keyword "in"
      gaps
      nested.typeTerm .bracket
      optional do gaps; keyword "as"; gaps; nested.typeTerm .bracket
  gaps
  symbol "]"

/-- Whether an index signature begins, its sign and `readonly` left aside. -/
def beginsIndex (text : Text) : Bool :=
  match text with
  | '[' :: rest =>
    let name := Trivia.behindAll rest
    let length := (Lexeme.word? name).getD 0
    let after := Trivia.behind (name.drop length)
    length != 0 && !Lexeme.isOneOf Vocabulary.operandWords (name.take length)
      && (after.head? == some ':' || Lexeme.wordAt after == "in".toList)
  | _ => false

def indexSignature (nested : Nested) : Parser Unit :=
  construct .indexSignature do
    optional do
      optional do anySymbol ["-", "+"]; gaps
      keyword "readonly"
      gaps
    check beginsIndex
    indexHead nested
    gaps
    optional do anySymbol ["-?", "+?", "?"]
    annotatedType nested (.upTo (some .bare))

/-- Reads the parameters and the result of a member that may be called. -/
def callTail (nested : Nested) : Parser Unit := do
  check fun text => Lexeme.headIn "(<" (Trivia.behindAll text)
  unended nested.dialect (some .bare)
  gaps
  signature nested (some .bare)

/-- Reads a member with a key: a property or a method. -/
def keyedMember (nested : Nested) : Parser Unit := do
  check fun text => Lexeme.wordAt text != "abstract".toList
  let marks ← modifiers nested false (some .bare)
  propertyName nested
  optional do gaps; symbol "?"
  (do
    require (Modifier.fitMethod nested.dialect marks)
    callTail nested)
  <|> do
    require (Modifier.fitProperty marks)
    optional do
      unended nested.dialect (some .bare)
      gaps
      annotatedType nested (.upTo (some .bare))

def constructMember (nested : Nested) : Parser Unit := do
  optional do keyword "abstract"; gaps
  keyword "new"
  check fun text => Lexeme.headIn "(<" (Trivia.behindAll text)
  unended nested.dialect (some .bare)
  gaps
  signature nested (some .bare)

def typeMember (nested : Nested) : Parser Unit :=
  indexSignature nested
    <|> constructMember nested
    <|> (do next '(' <|> next '<'; signature nested (some .bare))
    <|> keyedMember nested

/-- Reads the members of an object type in their braces. -/
def typeMembers (nested : Nested) : Parser Unit :=
  let separator : Parser Unit := (do gaps; symbol ",") <|> semicolon nested.dialect .bare
  do
    anySymbol ["\x7b|", "\x7b"]
    gaps
    optional do anySymbol [",", ";"]; gaps
    optional do
      typeMember nested
      many do separator; gaps; typeMember nested
      optional separator
      gaps
    anySymbol ["\x7d", "|\x7d"]

end FragmentLint.Grammar.Parser
