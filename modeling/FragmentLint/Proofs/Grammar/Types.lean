import FragmentLint.Proofs.Grammar.WellFormed
import FragmentLint.Proofs.Grammar.Word

/-!
Contract: tokens, literals, types and patterns are read as well-formed phrases.

Each parser of the grammar is looked at once, given parsers for nested constructs that read
well-formed phrases. Expressions, elements and assignment targets also begin with no mark of an
optional chain. An expression holds a value, and does not begin at a closing brace.

Owns: `Nested.WellFormed`, and the parsers below expressions.
-/

set_option synthInstance.maxSize 2000

namespace FragmentLint.Grammar

open Phrase (Unmarked WellFormed)

/-- Whether the parsers for nested constructs read well-formed phrases. -/
class Nested.WellFormed (nested : Nested) : Prop where
  expression : ∀ place, (nested.expression place).Reads (Phrase.WellFormed nested.dialect)
  unmarked_expression : ∀ place, (nested.expression place).Reads Phrase.Unmarked
  yields_expression : ∀ place, (nested.expression place).YieldsValue
  refuses_expression : ∀ place, (nested.expression place).RefusesBrace
  operand : ∀ level place, (nested.operand level place).Reads (Phrase.WellFormed nested.dialect)
  target : nested.target.Reads (Phrase.WellFormed nested.dialect)
  unmarked_target : nested.target.Reads Phrase.Unmarked
  element : nested.element.Reads (Phrase.WellFormed nested.dialect)
  markup_element : nested.element.Reads Phrase.IsMarkup
  statement : nested.statement.Reads (Phrase.WellFormed nested.dialect)
  declaration : nested.declaration.Reads (Phrase.WellFormed nested.dialect)
  pattern : ∀ anyTarget, (nested.pattern anyTarget).Reads (Phrase.WellFormed nested.dialect)
  unmarked_pattern : ∀ anyTarget, (nested.pattern anyTarget).Reads Phrase.Unmarked
  parameters : ∀ anyTarget, (nested.parameters anyTarget).Reads (Phrase.WellFormed nested.dialect)
  typeTerm : ∀ place, (nested.typeTerm place).Reads (Phrase.WellFormed nested.dialect)

attribute [instance] Nested.WellFormed.expression Nested.WellFormed.unmarked_expression
  Nested.WellFormed.yields_expression Nested.WellFormed.operand Nested.WellFormed.target
  Nested.WellFormed.unmarked_target Nested.WellFormed.element Nested.WellFormed.markup_element
  Nested.WellFormed.statement Nested.WellFormed.declaration Nested.WellFormed.pattern
  Nested.WellFormed.unmarked_pattern Nested.WellFormed.parameters Nested.WellFormed.typeTerm

namespace Parser

variable {dialect : Dialect} {nested : Nested} [nested.WellFormed]

/-! ## Tokens -/

section Tokens

theorem unmarked_token {scan : Text → Option Nat}
    (other : ∀ text length, scan text = some length → text.take length ≠ "?.".toList) :
    (token scan).Reads Unmarked := by
  constructor
  intro input parsed found
  unfold token at found
  split at found
  next => cases found
  next length scanned =>
    cases found
    intro phrase member
    obtain rfl := List.mem_singleton.1 member
    exact ⟨by simpa [Phrase.isChainSign] using other _ _ scanned, rfl⟩

theorem unmarked_symbol {literal : String} (other : literal.toList ≠ "?.".toList) :
    (symbol literal).Reads Unmarked := by
  refine unmarked_token ?_
  intro text length scanned
  unfold Lexeme.literal? at scanned
  split at scanned
  next begins =>
    cases scanned
    rw [← List.prefix_iff_eq_take.1 (List.isPrefixOf_iff_prefix.1 begins)]
    exact other
  next => cases scanned

instance : (symbol ".").Reads Unmarked := unmarked_symbol (by decide)

instance : (symbol "[").Reads Unmarked := unmarked_symbol (by decide)

instance : (symbol "]").Reads Unmarked := unmarked_symbol (by decide)

instance : (symbol "(").Reads Unmarked := unmarked_symbol (by decide)

instance : (symbol ")").Reads Unmarked := unmarked_symbol (by decide)

instance : word.Reads Unmarked := by
  refine unmarked_token ?_
  intro text length scanned taken
  have inWord := Lexeme.isWordChar_of_word? scanned '?' (by rw [taken]; decide)
  exact absurd inWord (by decide)

instance (literal : String) : (symbol literal).Reads (WellFormed dialect) := by
  unfold symbol
  infer_instance

instance : word.Reads (WellFormed dialect) := by
  unfold word
  infer_instance

instance (wanted : String) : (keyword wanted).Reads (WellFormed dialect) := by
  unfold keyword
  infer_instance

instance (wanted : List String) : (anyKeyword wanted).Reads (WellFormed dialect) := by
  induction wanted with
  | nil => exact inferInstanceAs (Parser.fail.Reads _)
  | cons first others inductionHypothesis =>
    exact inferInstanceAs ((keyword first <|> anyKeyword others).Reads _)

instance (literals : List String) : (anySymbol literals).Reads (WellFormed dialect) := by
  induction literals with
  | nil => exact inferInstanceAs (Parser.fail.Reads _)
  | cons first others inductionHypothesis =>
    exact inferInstanceAs ((symbol first <|> anySymbol others).Reads _)

instance (taken : List String) : (wordExcept taken).Reads (WellFormed dialect) := by
  unfold wordExcept
  infer_instance

instance (kind : Construct) [Holds kind.isNoMark] : (wordAs kind).Reads (WellFormed dialect) := by
  unfold wordAs
  infer_instance

instance (kind : Construct) [Holds kind.isNoMark] : (wordAs kind).Reads Unmarked := by
  unfold wordAs
  infer_instance

instance (item : Parser Unit) [item.Reads (WellFormed dialect)] :
    (sparse item).Reads (WellFormed dialect) := by
  unfold sparse
  infer_instance

instance (item : Parser Unit) [item.Reads (WellFormed dialect)] :
    (listed item).Reads (WellFormed dialect) := by
  unfold listed
  infer_instance

instance : comment.Reads (WellFormed dialect) := by
  unfold comment
  infer_instance

instance (here : Dialect) (ending : Ending) (bound : Text) :
    (impliedEndAlong here ending bound).Reads (WellFormed dialect) := by
  induction bound with
  | nil => exact inferInstanceAs ((check _).Reads _)
  | cons _ bound inductionHypothesis =>
    unfold impliedEndAlong
    infer_instance

instance (here : Dialect) (ending : Ending) :
    (impliedEnd here ending).Reads (WellFormed dialect) := by
  unfold impliedEnd
  infer_instance

instance (here : Dialect) (ending : Ending) (bound : Text) :
    (semicolonAlong here ending bound).Reads (WellFormed dialect) := by
  induction bound with
  | nil => exact inferInstanceAs ((check _).Reads _)
  | cons _ bound inductionHypothesis =>
    unfold semicolonAlong
    infer_instance

instance (here : Dialect) (ending : Ending) :
    (semicolon here ending).Reads (WellFormed dialect) := by
  unfold semicolon
  infer_instance

instance (here : Dialect) (ending : Option Ending) :
    (unended here ending).Reads (WellFormed dialect) := by
  unfold unended
  infer_instance

instance (here : Dialect) (ending : Option Ending) : (unended here ending).Reads Unmarked := by
  unfold unended
  infer_instance

end Tokens

instance : equals.Reads (WellFormed dialect) := by
  unfold equals
  infer_instance

instance (place : TypePlace) : (annotatedType nested place).Reads (WellFormed nested.dialect) := by
  unfold annotatedType
  infer_instance

instance (place : TypePlace) : (annotatedType nested place).Reads Unmarked := by
  unfold annotatedType
  infer_instance

instance (place : Place) : (expressions nested place).Reads (WellFormed nested.dialect) := by
  unfold expressions
  infer_instance

instance (place : Place) : (expressions nested place).Reads Unmarked := by
  unfold expressions
  infer_instance

instance : (parenthesized nested).Reads (WellFormed nested.dialect) := by
  unfold parenthesized
  infer_instance

instance : (parenthesized nested).Reads Unmarked := by
  unfold parenthesized
  infer_instance

instance (ending : Ending) : (block nested ending).Reads (WellFormed nested.dialect) := by
  unfold block
  infer_instance

/-! ## Literals -/

instance : privateName.Reads (WellFormed dialect) := by
  unfold privateName
  infer_instance

instance : number.Reads (WellFormed dialect) := by
  unfold number
  infer_instance

instance : string.Reads (WellFormed dialect) := by
  unfold string
  infer_instance

instance : number.Reads Unmarked := by
  unfold number
  infer_instance

instance : string.Reads Unmarked := by
  unfold string
  infer_instance

instance : (template nested).Reads (WellFormed nested.dialect) := by
  unfold template
  infer_instance

instance : (template nested).Reads Unmarked := by
  unfold template
  infer_instance

instance : (propertyName nested).Reads (WellFormed nested.dialect) := by
  unfold propertyName
  infer_instance

instance : (propertyName nested).Reads Unmarked := by
  unfold propertyName privateName
  infer_instance

instance : memberName.Reads (WellFormed dialect) := by
  unfold memberName
  infer_instance

instance : memberName.Reads Unmarked := by
  unfold memberName privateName
  infer_instance

instance (place : Place) : (initializer nested place).Reads (WellFormed nested.dialect) := by
  unfold initializer
  infer_instance

instance : (spread nested).Reads (WellFormed nested.dialect) := by
  unfold spread
  infer_instance

instance : (arguments nested).Reads (WellFormed nested.dialect) := by
  unfold arguments
  infer_instance

instance : (arguments nested).Reads Unmarked := by
  unfold arguments
  infer_instance

instance : (index nested).Reads (WellFormed nested.dialect) := by
  unfold index
  infer_instance

instance : (index nested).Reads Unmarked := by
  unfold index
  infer_instance

instance : (memberLink nested).Extends nested.dialect := by
  unfold memberLink
  infer_instance

/-! ## Generics and modifiers -/

instance : (typeArguments nested).Reads (WellFormed nested.dialect) := by
  unfold typeArguments
  infer_instance

instance : (typeArguments nested).Reads Unmarked := by
  unfold typeArguments
  infer_instance

instance : (typeParameters nested).Reads (WellFormed nested.dialect) := by
  unfold typeParameters
  dsimp only
  infer_instance

instance (place : TypePlace) : (predicateTail nested place).Reads (WellFormed nested.dialect) := by
  unfold predicateTail
  infer_instance

instance (place : TypePlace) : (resultTerm nested place).Reads (WellFormed nested.dialect) := by
  unfold resultTerm
  infer_instance

instance (place : TypePlace) : (resultType nested place).Reads (WellFormed nested.dialect) := by
  unfold resultType
  infer_instance

instance (ending : Option Ending) :
    (signature nested ending).Reads (WellFormed nested.dialect) := by
  unfold signature
  infer_instance

instance (words neverKeys : List String) (ending : Option Ending) :
    (modifier nested words neverKeys ending).Reads (WellFormed nested.dialect) := by
  unfold modifier
  refine @Reads.orElse _ _ _ _ inferInstance <| @Reads.bind _ _ _ _ _ inferInstance fun name => ?_
  split <;> infer_instance

instance (inClass : Bool) (ending : Option Ending) (seen : List String) (bound : Text) :
    (modifiersAlong nested inClass ending seen bound).Reads (WellFormed nested.dialect) := by
  induction bound generalizing seen with
  | nil => exact inferInstanceAs ((pure seen : Parser (List String)).Reads _)
  | cons _ bound inductionHypothesis =>
    unfold modifiersAlong
    infer_instance

instance (inClass : Bool) (ending : Option Ending) :
    (modifiers nested inClass ending).Reads (WellFormed nested.dialect) := by
  unfold modifiers
  infer_instance

/-! ## Members of object types -/

instance : (indexHead nested).Reads (WellFormed nested.dialect) := by
  unfold indexHead
  infer_instance

instance : (indexSignature nested).Reads (WellFormed nested.dialect) := by
  unfold indexSignature
  infer_instance

instance : (callTail nested).Reads (WellFormed nested.dialect) := by
  unfold callTail
  infer_instance

instance : (keyedMember nested).Reads (WellFormed nested.dialect) := by
  unfold keyedMember
  infer_instance

instance : (constructMember nested).Reads (WellFormed nested.dialect) := by
  unfold constructMember
  infer_instance

instance : (typeMember nested).Reads (WellFormed nested.dialect) := by
  unfold typeMember
  infer_instance

instance : (typeMembers nested).Reads (WellFormed nested.dialect) := by
  unfold typeMembers
  dsimp only
  infer_instance

/-! ## Types -/

instance (place : TypePlace) : (typeOperator place).Reads (WellFormed dialect) := by
  unfold typeOperator
  infer_instance

instance : leadingOperators.Reads (WellFormed dialect) := by
  unfold leadingOperators
  infer_instance

instance : (tupleMember nested).Reads (WellFormed nested.dialect) := by
  unfold tupleMember
  infer_instance

instance : (tupleType nested).Reads (WellFormed nested.dialect) := by
  unfold tupleType
  infer_instance

instance (place : TypePlace) : (functionType nested place).Reads (WellFormed nested.dialect) := by
  unfold functionType
  infer_instance

instance (place : TypePlace) :
    (constructorType nested place).Reads (WellFormed nested.dialect) := by
  unfold constructorType
  infer_instance

instance : (templateType nested).Reads (WellFormed nested.dialect) := by
  unfold templateType
  infer_instance

instance : (importedType nested).Reads (WellFormed nested.dialect) := by
  unfold importedType
  dsimp only
  infer_instance

instance (place : TypePlace) : (queriedValue nested place).Reads (WellFormed nested.dialect) := by
  unfold queriedValue
  dsimp only
  infer_instance

instance (place : TypePlace) : (typeQuery nested place).Reads (WellFormed nested.dialect) := by
  unfold typeQuery
  infer_instance

instance (place : TypePlace) : (namedType nested place).Reads (WellFormed nested.dialect) := by
  unfold namedType
  infer_instance

instance : signedNumber.Reads (WellFormed dialect) := by
  unfold signedNumber
  infer_instance

instance (place : TypePlace) : (wordType nested place).Reads (WellFormed nested.dialect) := by
  unfold wordType
  infer_instance

instance (place : TypePlace) : (typeHead nested place).Reads (WellFormed nested.dialect) := by
  unfold typeHead
  refine @Reads.bind _ _ _ _ _ inferInstance fun text => ?_
  split <;> infer_instance

instance (place : TypePlace) : (typeOperand nested place).Reads (WellFormed nested.dialect) := by
  unfold typeOperand
  infer_instance

instance (place : TypePlace) :
    (conditionalTail nested place).Reads (WellFormed nested.dialect) := by
  unfold conditionalTail
  infer_instance

instance (place : TypePlace) : (typeTerm nested place).Reads (WellFormed nested.dialect) := by
  unfold typeTerm
  infer_instance

/-! ## Patterns -/

instance : (boundName nested).Reads (WellFormed nested.dialect) := by
  unfold boundName
  infer_instance

instance : (boundName nested).Reads Unmarked := by
  unfold boundName wordAs
  infer_instance

instance (anyTarget : Bool) :
    (bindingTarget nested anyTarget).Reads (WellFormed nested.dialect) := by
  unfold bindingTarget
  infer_instance

instance (anyTarget : Bool) : (restPattern nested anyTarget).Reads (WellFormed nested.dialect) := by
  unfold restPattern
  infer_instance

instance (anyTarget : Bool) : (restPattern nested anyTarget).Reads Unmarked := by
  unfold restPattern
  infer_instance

instance (anyTarget : Bool) :
    (patternWithDefault nested anyTarget).Reads (WellFormed nested.dialect) := by
  unfold patternWithDefault
  infer_instance

instance (anyTarget : Bool) :
    (arrayPattern nested anyTarget).Reads (WellFormed nested.dialect) := by
  unfold arrayPattern
  infer_instance

instance (anyTarget : Bool) :
    (objectPattern nested anyTarget).Reads (WellFormed nested.dialect) := by
  unfold objectPattern
  infer_instance

instance (anyTarget : Bool) :
    (destructuringPattern nested anyTarget).Reads (WellFormed nested.dialect) := by
  unfold destructuringPattern
  infer_instance

instance (anyTarget : Bool) : (pattern nested anyTarget).Reads (WellFormed nested.dialect) := by
  unfold pattern
  infer_instance

instance (anyTarget : Bool) : (bindingTarget nested anyTarget).Reads Unmarked := by
  have grown : ((boundName nested).grow fun _ => memberLink nested).Reads Unmarked :=
    unmarked_grow nested.dialect inferInstance fun _ => inferInstance
  unfold bindingTarget
  infer_instance

instance (anyTarget : Bool) : (arrayPattern nested anyTarget).Reads Unmarked := by
  unfold arrayPattern
  infer_instance

instance (anyTarget : Bool) : (objectPattern nested anyTarget).Reads Unmarked := by
  unfold objectPattern
  infer_instance

instance (anyTarget : Bool) : (destructuringPattern nested anyTarget).Reads Unmarked := by
  unfold destructuringPattern
  infer_instance

instance (anyTarget : Bool) : (pattern nested anyTarget).Reads Unmarked := by
  unfold pattern
  infer_instance

instance : (decorator nested).Reads (WellFormed nested.dialect) := by
  unfold decorator
  infer_instance

instance : (decorators nested).Reads (WellFormed nested.dialect) := by
  unfold decorators
  infer_instance

instance : optionalMark.Reads (WellFormed dialect) := by
  unfold optionalMark
  infer_instance

instance : (parameterModifiers nested).Reads (WellFormed nested.dialect) := by
  unfold parameterModifiers
  infer_instance

instance (anyTarget : Bool) : (parameter nested anyTarget).Reads (WellFormed nested.dialect) := by
  unfold parameter
  infer_instance

instance (anyTarget : Bool) : (parameters nested anyTarget).Reads (WellFormed nested.dialect) := by
  unfold parameters
  infer_instance

end Parser

end FragmentLint.Grammar
