import FragmentLint.Grammar.Statement

/-!
Contract: reading a whole source file.

The grammar is tied together to a depth of one more than the number of characters, which no text can
exceed because nesting costs at least one character a level. Main statement: the phrases of an
accepted source spell that source (`spellAll_of_phrases?`).
-/

namespace FragmentLint.Grammar

namespace Nested

/-- The parsers whose nested constructs are read by the given ones. -/
def deepen (inner : Nested) : Nested where
  dialect := inner.dialect
  expression := Parser.expression inner
  operand := Parser.operand inner
  target := Parser.target inner
  element := Parser.markup inner false
  statement := Parser.statement inner
  declaration := Parser.declaration inner Option.none .bare
  pattern := Parser.pattern inner
  parameters := Parser.parameters inner
  typeTerm := Parser.typeTerm inner

/-- The parsers that read constructs nested to a depth. -/
def ofDepth (dialect : Dialect) (depth : Nat) : Nested :=
  Nat.repeat deepen depth (none dialect)

end Nested

namespace Parser

/-- Reads a whole file: an interpreter line, if there is one, and statements. -/
def file (nested : Nested) : Parser Unit := do
  gaps
  optional do
    construct .hashBangLine do
      check fun text => "#!".toList.isPrefixOf text
      token fun text => some (Lexeme.restOfLine text)
  many do gaps; nested.statement
  gaps

end Parser

/-- The phrases that a source file consists of; `none` if it is not well formed. -/
def phrases? (dialect : Dialect) (source : Text) : Option (List Phrase) :=
  match Parser.file (Nested.ofDepth dialect (4 * (source.length + 1))) source with
  | some ⟨_, phrases, [], _⟩ => some phrases
  | _ => none

theorem spellAll_of_phrases? {dialect : Dialect} {source : Text} {phrases : List Phrase}
    (accepted : phrases? dialect source = some phrases) : Phrase.spellAll phrases = source := by
  unfold phrases? at accepted
  split at accepted
  next value found spelled _ =>
    cases accepted
    simpa using spelled
  next => simp at accepted

end FragmentLint.Grammar
