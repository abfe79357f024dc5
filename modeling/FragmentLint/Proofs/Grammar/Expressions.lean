import FragmentLint.Proofs.Grammar.Braces

/-!
Contract: functions, classes, markup and expressions are read as well-formed phrases.

An expression begins with an operand that is no mark of an optional chain, and what it grows by is a
link or an operator. A call, a member and a subscript take no mark in a form that they have no use
for; that is where the dialects differ. A tag begins with its name, or has none. An operand is a construct
or markup, and none begins at a closing brace.

Owns: the parsers from functions up to expressions.
-/

set_option synthInstance.maxSize 2000

namespace FragmentLint.Grammar.Parser

open Phrase (Unmarked WellFormed IsGap IsToken)

variable {dialect : Dialect} {nested : Nested} [nested.WellFormed]

/-! ## Functions and classes -/

instance (ending : Option Ending) :
    (asyncMark nested ending).Reads (WellFormed nested.dialect) := by
  unfold asyncMark
  infer_instance

instance (ending : Option Ending) :
    (functionHead nested ending).Reads (WellFormed nested.dialect) := by
  unfold functionHead
  infer_instance

instance (place : Place) : (functionExpression nested place).Reads (WellFormed nested.dialect) := by
  unfold functionExpression
  infer_instance

instance (place : Place) : (functionExpression nested place).Reads Unmarked := by
  unfold functionExpression
  infer_instance

instance (start : Option Ending) (ending : Ending) :
    (functionDeclaration nested start ending).Reads (WellFormed nested.dialect) := by
  unfold functionDeclaration
  refine @Reads.discard _ _ _ (wellFormed_constructBy inferInstance ?_)
  exact (inferInstance : AnswersFree _).ensures

instance : (methodTail nested).Reads (WellFormed nested.dialect) := by
  unfold methodTail
  infer_instance

instance : (method nested).Reads (WellFormed nested.dialect) := by
  unfold method
  infer_instance

instance : (staticBlock nested).Reads (WellFormed nested.dialect) := by
  unfold staticBlock
  infer_instance

instance : (keyedClassMember nested).Reads (WellFormed nested.dialect) := by
  unfold keyedClassMember
  infer_instance

instance (typed : Bool) (kind : MemberKind) : Holds (kind.construct typed).isFree := by
  cases kind <;> cases typed <;> exact ⟨rfl⟩

instance : (classMember nested).Reads (WellFormed nested.dialect) := by
  unfold classMember
  dsimp only
  refine @Reads.orElse _ _ _ _ inferInstance <| @Reads.orElse _ _ _ _ inferInstance <|
    @Reads.orElse _ _ _ _ inferInstance <| @Reads.bind _ _ _ _ _ inferInstance fun kind => ?_
  cases kind <;> infer_instance

instance : (classBody nested).Reads (WellFormed nested.dialect) := by
  unfold classBody
  infer_instance

instance : (heritage nested).Reads (WellFormed nested.dialect) := by
  unfold heritage
  infer_instance

instance (named : Bool) : (classTail nested named).Reads (WellFormed nested.dialect) := by
  unfold classTail
  infer_instance

instance : (classExpression nested).Reads (WellFormed nested.dialect) := by
  unfold classExpression
  infer_instance

instance : (classExpression nested).Reads Unmarked := by
  unfold classExpression
  infer_instance

instance (ending : Ending) :
    (classDeclaration nested ending).Reads (WellFormed nested.dialect) := by
  unfold classDeclaration
  refine @Reads.discard _ _ _ (wellFormed_constructBy inferInstance ?_)
  refine (@Answers.bind _ _ _ _ _ fun _ => ?_ : AnswersFree _).ensures
  exact answersFree_of_passed inferInstance fun kind free => inferInstance

/-! ## Markup -/

instance (inExpression : Bool) :
    (tagInside nested inExpression).Reads (WellFormed nested.dialect) := by
  unfold tagInside
  infer_instance

instance : (content nested).Reads (WellFormed nested.dialect) := by
  unfold content
  infer_instance

/-- The inside of an opening tag begins with the name, if there is one. -/
theorem opensTag_tagInside (nested : Nested) (inExpression : Bool) :
    (tagInside nested inExpression).Ensures fun _ inside => Phrase.OpensTag inside := by
  unfold tagInside
  have gap : gaps.Reads IsGap := by
    unfold gaps
    infer_instance
  have name : (reading tagName).Ensures fun _ phrases => ∃ written, phrases = [.name written]
      ∧ ∃ text rest, TagName.readTag? text = some (written, rest) :=
    .reading tagName_ensures
  refine gap.ensures.bind ?_
  intro _ before gaps
  refine .orElse (name.bind ?_) (.pure ⟨before, [], by simp, gaps, .inl rfl⟩)
  rintro _ _ ⟨written, rfl, read⟩ input parsed found
  exact ⟨before, .name written :: parsed.phrases, by simp, gaps, .inr ⟨written, _, rfl, read⟩⟩

instance (inExpression : Bool) :
    (markup nested inExpression).Reads (WellFormed nested.dialect) := by
  unfold markup
  refine @Reads.bind _ _ _ _ _ inferInstance fun _ => ⟨?_⟩
  have opens := opensTag_tagInside nested inExpression
  have inOpening : (tagInside nested inExpression).Reads (WellFormed nested.dialect) :=
    inferInstance
  have both : (tagInside nested inExpression).Ensures fun _ inside =>
      Phrase.OpensTag inside ∧ ∀ phrase ∈ inside, phrase.WellFormed nested.dialect :=
    fun input parsed found => ⟨opens _ _ found, inOpening.ensures _ _ found⟩
  have inContent : (content nested).Reads (WellFormed nested.dialect) := inferInstance
  have isContent : (content nested).Reads Phrase.IsContent := inferInstance
  have between : (content nested).Ensures fun _ inside =>
      (∀ phrase ∈ inside, phrase.WellFormed nested.dialect) ∧ ∀ phrase ∈ inside, phrase.IsContent :=
    fun input parsed found => ⟨inContent.ensures _ _ found, isContent.ensures _ _ found⟩
  have inClosing : (do gaps; optional do tagName; gaps : Parser Unit).Reads
      (WellFormed nested.dialect) := inferInstance
  refine .element both between inClosing.ensures ?_ ?_
  · rintro inTag ⟨opens, inside⟩ phrase member
    obtain rfl := List.mem_singleton.1 member
    exact .selfClosing opens inside
  · rintro opening inside closing ⟨opens, inOpening⟩ ⟨inContent, isContent⟩ inClosing phrase member
    obtain rfl := List.mem_singleton.1 member
    exact .element opens inOpening inContent inClosing isContent

instance (inExpression : Bool) : (markup nested inExpression).Reads Unmarked := by
  unfold markup
  infer_instance

instance (inExpression : Bool) : (markup nested inExpression).Reads Phrase.IsMarkup := by
  unfold markup
  infer_instance

/-! ## Links and operators -/

instance (place : Place) : (questionMark nested place).Reads (WellFormed nested.dialect) := by
  unfold questionMark
  infer_instance

instance : chainMark.Reads (WellFormed dialect) := by
  unfold chainMark
  infer_instance

instance (least : Nat) (place : Place) :
    (operatorAtLeast least place).Reads (WellFormed dialect) := by
  unfold operatorAtLeast
  refine @Reads.bind _ _ _ _ _ inferInstance fun text => ?_
  split <;> infer_instance

instance : chainMark.Reads IsToken := by
  unfold chainMark symbol
  infer_instance

/-- A sign is read as one token. -/
theorem symbol_ensures (literal : String) :
    (symbol literal).Ensures fun _ phrases => phrases = [.token literal.toList] := by
  intro input parsed found
  unfold symbol token at found
  split at found
  next => cases found
  next length isLiteral =>
    cases found
    unfold Lexeme.literal? at isLiteral
    split at isLiteral
    next begins =>
      obtain ⟨rest, rfl⟩ := List.isPrefixOf_iff_prefix.1 begins
      obtain rfl := Option.some.inj isLiteral
      simp
    next => cases isLiteral

theorem chainMark_ensures :
    chainMark.Ensures fun _ phrases => phrases = [.token "?.".toList] := by
  unfold chainMark
  have nothing : (check Vocabulary.beginsChain).Ensures fun _ phrases => phrases = [] := .check rfl
  refine nothing.bind ?_
  rintro _ _ rfl
  exact symbol_ensures "?."

/-- As a construct of its own the mark of a chain is no plain sign. -/
theorem ensures_construct_chainMark (dialect : Dialect) :
    (construct .optionalChain chainMark).Ensures fun _ phrases => ∀ phrase ∈ phrases,
      phrase.WellFormed dialect ∧ phrase.isChainSign = false := by
  have read : chainMark.Reads (WellFormed dialect) := inferInstance
  refine .wrap ?_
  intro input parsed found phrase member
  obtain rfl := List.mem_singleton.1 member
  have parts := chainMark_ensures _ _ found
  refine ⟨.construct rfl (fun _ => ?_) (fun _ _ => rfl) (read.ensures _ _ found), rfl⟩
  simp [parts, Phrase.spell]

instance : (chainedMember nested).Extends nested.dialect := by
  unfold chainedMember
  refine @Extends.bind _ _ _ _ inferInstance inferInstance fun _ => ?_
  have mark : (construct .optionalChain chainMark).Ensures fun _ phrases => ∀ phrase ∈ phrases,
      phrase.WellFormed nested.dialect ∧ ∀ kind, (kind = Construct.member ∨ kind = .subscript) →
        kind.admits nested.dialect phrase = true := by
    refine (ensures_construct_chainMark nested.dialect).mono ?_
    intro _ phrases good phrase member
    refine ⟨(good phrase member).1, ?_⟩
    rintro kind (rfl | rfl)
    · simp [Construct.admits, (good phrase member).2]
    · simp [Construct.admits, (good phrase member).2]
  have member : (pure .member : Parser Construct).Answers fun kind =>
      kind = .member ∨ kind = .subscript :=
    ⟨.pure (.inl rfl)⟩
  have subscript : (pure .subscript : Parser Construct).Answers
      fun kind => kind = .member ∨ kind = .subscript :=
    ⟨.pure (.inr rfl)⟩
  exact .bind_of mark (fun _ => inferInstance) fun _ => inferInstance

instance : (chainedCall nested).Extends nested.dialect := by
  unfold chainedCall
  refine @Extends.bind _ _ _ _ inferInstance inferInstance fun _ => ?_
  have call : (pure .call : Parser Construct).Answers (· = .call) := ⟨.pure rfl⟩
  dsimp only
  split
  next typed =>
    have isTsx : nested.dialect = .tsx := eq_of_beq typed
    have mark : chainMark.Ensures fun _ phrases => ∀ phrase ∈ phrases,
        phrase.WellFormed nested.dialect ∧ ∀ kind, kind = Construct.call →
          kind.admits nested.dialect phrase = true := by
      have tokens : chainMark.Reads IsToken := inferInstance
      refine tokens.ensures.mono ?_
      intro _ phrases tokens phrase member
      obtain ⟨text, rfl⟩ := tokens phrase member
      refine ⟨.token text, ?_⟩
      rintro kind rfl
      rw [isTsx]
      rfl
    exact .bind_of mark (fun _ => inferInstance) fun _ => inferInstance
  next untyped =>
    have isJavascript : nested.dialect = .javascript := by
      cases eq : nested.dialect with
      | javascript => rfl
      | tsx => exact absurd (by simp [Nested.typed, eq]) untyped
    have mark : (construct .optionalChain chainMark).Ensures fun _ phrases => ∀ phrase ∈ phrases,
        phrase.WellFormed nested.dialect ∧ ∀ kind, kind = Construct.call →
          kind.admits nested.dialect phrase = true := by
      refine (ensures_construct_chainMark nested.dialect).mono ?_
      intro _ phrases good phrase member
      refine ⟨(good phrase member).1, ?_⟩
      rintro kind rfl
      rw [isJavascript]
      simp [Construct.admits, (good phrase member).2]
    exact .bind_of mark (fun _ => inferInstance) fun _ => inferInstance

instance : (templateCall nested).Extends nested.dialect := by
  unfold templateCall
  infer_instance

instance (object : List Phrase) : (link nested object).Extends nested.dialect := by
  unfold link
  infer_instance

instance (object : List Phrase) :
    (constructorLink nested object).Extends nested.dialect := by
  unfold constructorLink
  infer_instance

instance : presenceMark.Extends nested.dialect := by
  unfold presenceMark
  infer_instance

instance (place : Place) : (application nested place).Extends nested.dialect := by
  unfold application
  infer_instance

instance (level : Level) (place : Place) :
    (binaryTail nested level place).Extends nested.dialect := by
  unfold binaryTail
  infer_instance

instance (inner : Place → Parser Unit)
    [∀ place, (inner place).Reads (WellFormed nested.dialect)] :
    (beforeColon nested inner).Reads (WellFormed nested.dialect) := by
  unfold beforeColon
  infer_instance

instance (place : Place) : (choiceTail nested place).Extends nested.dialect := by
  unfold choiceTail
  infer_instance

instance (place : Place) : (castTail nested place).Extends nested.dialect := by
  have free : (castTail nested place).AnswersFree := by
    unfold castTail
    refine @Answers.bind _ _ _ _ _ fun _ => ?_
    exact answersFree_of_passed inferInstance fun kind free => inferInstance
  have read : (castTail nested place).Reads (WellFormed nested.dialect) := by
    unfold castTail
    infer_instance
  infer_instance

instance (place : Place) : (assignmentTail nested place).Extends nested.dialect := by
  have free : (assignmentTail nested place).AnswersFree := by
    unfold assignmentTail
    refine @Answers.bind _ _ _ _ _ fun _ => ?_
    exact answersFree_of_passed inferInstance fun kind free => inferInstance
  have read : (assignmentTail nested place).Reads (WellFormed nested.dialect) := by
    unfold assignmentTail
    infer_instance
  infer_instance

instance (level : Level) (place : Place) (operand : List Phrase) :
    (tail nested level place operand).Extends nested.dialect := by
  unfold tail
  infer_instance

/-! ## Operands -/

instance : (array nested).Reads (WellFormed nested.dialect) := by
  unfold array
  infer_instance

instance : (array nested).Reads Unmarked := by
  unfold array
  infer_instance

instance : (object nested).Reads (WellFormed nested.dialect) := by
  unfold object
  infer_instance

instance : (object nested).Reads Unmarked := by
  unfold object
  infer_instance

instance (place : Place) (anyTarget : Bool) :
    (destructuring nested place anyTarget).Reads (WellFormed nested.dialect) := by
  unfold destructuring
  infer_instance

instance (place : Place) (anyTarget : Bool) :
    (destructuring nested place anyTarget).Reads Unmarked := by
  unfold destructuring
  infer_instance

instance (place : Place) (literal : Parser Unit) [literal.Reads (WellFormed nested.dialect)] :
    (literalOrPattern nested place literal).Reads (WellFormed nested.dialect) := by
  unfold literalOrPattern
  infer_instance

instance (place : Place) (literal : Parser Unit) [literal.Reads Unmarked] :
    (literalOrPattern nested place literal).Reads Unmarked := by
  unfold literalOrPattern
  infer_instance

instance (place : Place) : (arrowBody nested place).Reads (WellFormed nested.dialect) := by
  unfold arrowBody
  infer_instance

instance (place : Place) : (arrowTail nested place).Reads (WellFormed nested.dialect) := by
  unfold arrowTail
  infer_instance

instance (place : Place) (anyTarget : Bool) :
    (arrowFunction nested place anyTarget).Reads (WellFormed nested.dialect) := by
  unfold arrowFunction
  infer_instance

instance (place : Place) (anyTarget : Bool) :
    (arrowFunction nested place anyTarget).Reads Unmarked := by
  unfold arrowFunction
  infer_instance

instance (place : Place) : (namedArrow nested place).Reads (WellFormed nested.dialect) := by
  unfold namedArrow
  infer_instance

instance (place : Place) : (namedArrow nested place).Reads Unmarked := by
  unfold namedArrow
  infer_instance

instance (place : Place) : (asyncArrow nested place).Reads (WellFormed nested.dialect) := by
  unfold asyncArrow
  infer_instance

instance (place : Place) : (asyncArrow nested place).Reads Unmarked := by
  unfold asyncArrow
  infer_instance

instance (place : Place) :
    (parenthesizedOrArrow nested place).Reads (WellFormed nested.dialect) := by
  unfold parenthesizedOrArrow
  infer_instance

instance (place : Place) : (parenthesizedOrArrow nested place).Reads Unmarked := by
  unfold parenthesizedOrArrow
  infer_instance

instance : (importOperand nested).Reads (WellFormed nested.dialect) := by
  unfold importOperand
  infer_instance

instance : (importOperand nested).Reads Unmarked := by
  unfold importOperand
  infer_instance

instance : newTarget.Reads (WellFormed dialect) := by
  unfold newTarget
  infer_instance

instance : newTarget.Reads Unmarked := by
  unfold newTarget
  infer_instance

theorem isNoMark_of_wordConstruct? {name : Text} {kind : Construct}
    (found : wordConstruct? name = some kind) : kind.isNoMark = true := by
  unfold wordConstruct? at found
  repeat' split at found
  all_goals first | (cases found; rfl) | cases found

instance (place : Place) : (wordOperand nested place).Reads (WellFormed nested.dialect) := by
  unfold wordOperand
  refine @Reads.bind _ _ _ _ _ inferInstance fun name => ?_
  split
  next kind found =>
    have noMark : Holds kind.isNoMark := ⟨isNoMark_of_wordConstruct? found⟩
    infer_instance
  next => infer_instance

instance (place : Place) : (wordOperand nested place).Reads Unmarked := by
  unfold wordOperand
  refine @Reads.bind _ _ _ _ _ inferInstance fun name => ?_
  split
  next kind found =>
    have noMark : Holds kind.isNoMark := ⟨isNoMark_of_wordConstruct? found⟩
    infer_instance
  next => infer_instance

instance (place : Place) : (primary nested place).Reads (WellFormed nested.dialect) := by
  unfold primary
  refine @Reads.bind _ _ _ _ _ inferInstance fun text => ?_
  split <;> infer_instance

instance (place : Place) : (primary nested place).Reads Unmarked := by
  unfold primary
  refine @Reads.bind _ _ _ _ _ inferInstance fun text => ?_
  split <;> infer_instance

instance : (target nested).Reads (WellFormed nested.dialect) := by
  unfold target
  infer_instance

instance : (target nested).Reads Unmarked := by
  unfold target
  have begins : (primary nested .bracket).Reads Unmarked := inferInstance
  have grown := unmarked_grow nested.dialect begins
    fun object => (inferInstance : Extends _ (link nested object <|> do
      require nested.typed
      presenceMark))
  infer_instance

instance (place : Place) : (newOperand nested place).Reads (WellFormed nested.dialect) := by
  unfold newOperand
  infer_instance

instance (place : Place) : (newOperand nested place).Reads Unmarked := by
  unfold newOperand
  infer_instance

instance (place : Place) : (yieldOperand nested place).Reads (WellFormed nested.dialect) := by
  unfold yieldOperand
  infer_instance

instance (place : Place) : (yieldOperand nested place).Reads Unmarked := by
  unfold yieldOperand
  infer_instance

instance (place : Place) : (usingOperand nested place).Reads (WellFormed nested.dialect) := by
  unfold usingOperand
  infer_instance

instance (place : Place) : (usingOperand nested place).Reads Unmarked := by
  unfold usingOperand
  infer_instance

instance : (namespaceOperand nested).Reads (WellFormed nested.dialect) := by
  unfold namespaceOperand
  infer_instance

instance : (namespaceOperand nested).Reads Unmarked := by
  unfold namespaceOperand
  infer_instance

instance (place : Place) : (wordHead nested place).Reads (WellFormed nested.dialect) := by
  unfold wordHead
  infer_instance

instance (place : Place) : (wordHead nested place).Reads Unmarked := by
  unfold wordHead
  infer_instance

instance (place : Place) : (privateTest nested place).Reads (WellFormed nested.dialect) := by
  unfold privateTest
  infer_instance

instance (place : Place) : (privateTest nested place).Reads Unmarked := by
  unfold privateTest
  infer_instance

instance (place : Place) : (head nested place).Reads (WellFormed nested.dialect) := by
  unfold head
  refine @Reads.bind _ _ _ _ _ inferInstance fun text => ?_
  split <;> infer_instance

instance (place : Place) : (head nested place).Reads Unmarked := by
  unfold head
  refine @Reads.bind _ _ _ _ _ inferInstance fun text => ?_
  split <;> infer_instance

instance (level : Level) (place : Place) :
    (operand nested level place).Reads (WellFormed nested.dialect) := by
  unfold operand
  infer_instance

instance (level : Level) (place : Place) : (operand nested level place).Reads Unmarked := by
  exact unmarked_grow nested.dialect inferInstance fun _ => inferInstance

instance (place : Place) : (expression nested place).Reads (WellFormed nested.dialect) := by
  unfold expression
  infer_instance

instance (place : Place) : (expression nested place).Reads Unmarked := by
  unfold expression
  infer_instance

/-! ## Values -/

section Values

variable (nested : Nested)

instance (place : Place) : (functionExpression nested place).YieldsValue := by
  unfold functionExpression
  infer_instance

instance : (classExpression nested).YieldsValue := by
  unfold classExpression
  infer_instance

instance (inExpression : Bool) : (markup nested inExpression).YieldsValue := by
  unfold markup
  infer_instance

instance (place : Place) (literal : Parser Unit) [literal.YieldsValue] :
    (literalOrPattern nested place literal).YieldsValue := by
  unfold literalOrPattern destructuring
  infer_instance

instance (place : Place) : (parenthesizedOrArrow nested place).YieldsValue := by
  unfold parenthesizedOrArrow parenthesized arrowFunction
  infer_instance

instance (place : Place) : (wordOperand nested place).YieldsValue := by
  unfold wordOperand importOperand newTarget wordAs
  refine @Yields.bind_right _ _ _ _ _ fun name => ?_
  split <;> infer_instance

instance (place : Place) : (primary nested place).YieldsValue := by
  unfold primary parenthesized array object template string number
  refine @Yields.bind_right _ _ _ _ _ fun text => ?_
  split <;> infer_instance

instance (place : Place) : (newOperand nested place).YieldsValue := by
  unfold newOperand newTarget
  infer_instance

instance (place : Place) : (wordHead nested place).YieldsValue := by
  unfold wordHead yieldOperand usingOperand namedArrow asyncArrow namespaceOperand wordAs
  infer_instance

instance (place : Place) : (head nested place).YieldsValue := by
  unfold head arrowFunction array object privateTest
  refine @Yields.bind_right _ _ _ _ _ fun text => ?_
  split <;> infer_instance

instance (place : Place) : (expression nested place).YieldsValue := by
  unfold expression operand
  infer_instance

/-- No operand begins at a closing brace. -/
theorem refusesBrace_expression (place : Place) : (expression nested place).RefusesBrace := by
  intro rest
  have noOperand : head nested place ('}' :: rest) = none := rfl
  unfold expression operand grow
  rw [noOperand]

end Values

end FragmentLint.Grammar.Parser
