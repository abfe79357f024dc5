import FragmentLint.Proofs.Grammar.Expressions

/-!
Contract: the phrases of an accepted source are well formed, however deep they are nested.

A step from the parsers of one depth to those of the next keeps what they read well formed
(`Nested.deepen`), so it is kept to every depth. Main statement: `wellFormed_of_phrases?`.

Owns: the parsers of declarations, modules, statements and whole sources.
-/

set_option synthInstance.maxSize 2000

namespace FragmentLint.Grammar

open Phrase (WellFormed)

namespace Parser

variable {dialect : Dialect} {nested : Nested} [nested.WellFormed]

/-! ## Declarations -/

instance (place : Place) : (declarator nested place).Reads (WellFormed nested.dialect) := by
  unfold declarator
  infer_instance

instance (valued : Bool) (bound : Text) :
    (declaratorsAlong nested valued bound).Reads (WellFormed nested.dialect) := by
  induction bound generalizing valued with
  | nil => exact inferInstanceAs ((pure valued : Parser Bool).Reads _)
  | cons _ bound inductionHypothesis =>
    unfold declaratorsAlong
    infer_instance

instance : (variableDeclaration nested).Reads (WellFormed nested.dialect) := by
  unfold variableDeclaration
  infer_instance

instance : dottedName.Reads (WellFormed dialect) := by
  unfold dottedName
  infer_instance

instance : (enumBody nested).Reads (WellFormed nested.dialect) := by
  unfold enumBody
  infer_instance

instance : (enumDeclaration nested).Reads (WellFormed nested.dialect) := by
  unfold enumDeclaration
  infer_instance

instance : (typeAlias nested).Reads (WellFormed nested.dialect) := by
  unfold typeAlias
  infer_instance

instance : (interfaceDeclaration nested).Reads (WellFormed nested.dialect) := by
  unfold interfaceDeclaration
  infer_instance

instance (ending : Ending) : (namespaceTail nested ending).Reads (WellFormed nested.dialect) := by
  unfold namespaceTail
  infer_instance

instance : (importAlias nested).Reads (WellFormed nested.dialect) := by
  unfold importAlias
  infer_instance

instance (start : Option Ending) (ending : Ending) :
    (declaration nested start ending).Reads (WellFormed nested.dialect) := by
  unfold declaration
  infer_instance

/-! ## Modules -/

instance : moduleName.Reads (WellFormed dialect) := by
  unfold moduleName
  infer_instance

instance (name : Parser Unit) [name.Reads (WellFormed dialect)] :
    (renamed name).Reads (WellFormed dialect) := by
  unfold renamed
  infer_instance

instance (specifier : Parser Unit) [specifier.Reads (WellFormed dialect)] :
    (moduleNames specifier).Reads (WellFormed dialect) := by
  unfold moduleNames
  infer_instance

instance : (exportSpecifier nested).Reads (WellFormed nested.dialect) := by
  unfold exportSpecifier
  infer_instance

instance : (importSpecifier nested).Reads (WellFormed nested.dialect) := by
  unfold importSpecifier
  infer_instance

instance : fromClause.Reads (WellFormed dialect) := by
  unfold fromClause
  infer_instance

instance : (importAttribute nested).Reads (WellFormed nested.dialect) := by
  unfold importAttribute
  infer_instance

instance : namespaceImport.Reads (WellFormed dialect) := by
  unfold namespaceImport
  infer_instance

instance : (importStatement nested).Reads (WellFormed nested.dialect) := by
  unfold importStatement
  infer_instance

instance : (defaultExport nested).Reads (WellFormed nested.dialect) := by
  unfold defaultExport
  infer_instance

instance : (exportStatement nested).Reads (WellFormed nested.dialect) := by
  unfold exportStatement
  infer_instance

/-! ## Statements -/

instance : (expressionStatement nested).Reads (WellFormed nested.dialect) := by
  unfold expressionStatement
  infer_instance

instance : (ifStatement nested).Reads (WellFormed nested.dialect) := by
  unfold ifStatement
  infer_instance

instance : (forInHead nested).Reads (WellFormed nested.dialect) := by
  unfold forInHead
  infer_instance

instance : (forInStatement nested).Reads (WellFormed nested.dialect) := by
  unfold forInStatement
  infer_instance

instance : (forStatement nested).Reads (WellFormed nested.dialect) := by
  unfold forStatement
  infer_instance

instance : (anyFor nested).Reads (WellFormed nested.dialect) := by
  unfold anyFor
  infer_instance

instance : (whileStatement nested).Reads (WellFormed nested.dialect) := by
  unfold whileStatement
  infer_instance

instance : (doStatement nested).Reads (WellFormed nested.dialect) := by
  unfold doStatement
  infer_instance

instance : (switchStatement nested).Reads (WellFormed nested.dialect) := by
  unfold switchStatement
  infer_instance

instance : (tryStatement nested).Reads (WellFormed nested.dialect) := by
  unfold tryStatement
  infer_instance

instance : (withStatement nested).Reads (WellFormed nested.dialect) := by
  unfold withStatement
  infer_instance

instance (kind : Construct) (name : String) [Holds kind.isFree] :
    (jump nested kind name).Reads (WellFormed nested.dialect) := by
  unfold jump
  infer_instance

instance : (returnStatement nested).Reads (WellFormed nested.dialect) := by
  unfold returnStatement
  infer_instance

instance : (throwStatement nested).Reads (WellFormed nested.dialect) := by
  unfold throwStatement
  infer_instance

instance : (labeledStatement nested).Reads (WellFormed nested.dialect) := by
  unfold labeledStatement
  infer_instance

instance : (declarationStatement nested).Reads (WellFormed nested.dialect) := by
  unfold declarationStatement
  infer_instance

instance : (decoratedStatement nested).Reads (WellFormed nested.dialect) := by
  unfold decoratedStatement
  infer_instance

instance : (wordStatement nested).Reads (WellFormed nested.dialect) := by
  unfold wordStatement
  infer_instance

instance : (statement nested).Reads (WellFormed nested.dialect) := by
  unfold statement
  refine @Reads.bind _ _ _ _ _ inferInstance fun text => ?_
  split <;> infer_instance

instance : (file nested).Reads (WellFormed nested.dialect) := by
  unfold file
  infer_instance

end Parser

/-! ## Sources -/

theorem Nested.wellFormed_none (dialect : Dialect) : (Nested.none dialect).WellFormed := by
  have reads {good : Phrase → Prop} : (Parser.fail : Parser Unit).Reads good := inferInstance
  constructor
  case yields_expression => exact fun _ => inferInstanceAs (Parser.fail.Yields _)
  case refuses_expression => exact fun _ _ => rfl
  all_goals
    intros
    exact reads

/-- What is nested one level deeper is read as well-formed phrases, too. -/
theorem Nested.wellFormed_deepen (nested : Nested) [nested.WellFormed] :
    nested.deepen.WellFormed := by
  have read (parser : Parser Unit) [given : parser.Reads (Phrase.WellFormed nested.dialect)] :
      parser.Reads (Phrase.WellFormed nested.deepen.dialect) := given
  exact {
    expression := fun place => read (Parser.expression nested place)
    unmarked_expression := fun place => inferInstanceAs ((Parser.expression nested place).Reads _)
    yields_expression := fun place => inferInstanceAs ((Parser.expression nested place).Yields _)
    refuses_expression := Parser.refusesBrace_expression nested
    operand := fun level place => read (Parser.operand nested level place)
    target := read (Parser.target nested)
    unmarked_target := inferInstanceAs ((Parser.target nested).Reads _)
    element := read (Parser.markup nested false)
    markup_element := inferInstanceAs ((Parser.markup nested false).Reads _)
    statement := read (Parser.statement nested)
    declaration := read (Parser.declaration nested Option.none .bare)
    pattern := fun anyTarget => read (Parser.pattern nested anyTarget)
    unmarked_pattern := fun anyTarget => inferInstanceAs ((Parser.pattern nested anyTarget).Reads _)
    parameters := fun anyTarget => read (Parser.parameters nested anyTarget)
    typeTerm := fun place => read (Parser.typeTerm nested place)
  }

theorem Nested.wellFormed_ofDepth (dialect : Dialect) (depth : Nat) :
    (Nested.ofDepth dialect depth).WellFormed
      ∧ (Nested.ofDepth dialect depth).dialect = dialect := by
  induction depth with
  | zero => exact ⟨wellFormed_none dialect, rfl⟩
  | succ depth inductionHypothesis =>
    have : (Nested.ofDepth dialect depth).WellFormed := inductionHypothesis.1
    exact ⟨wellFormed_deepen (Nested.ofDepth dialect depth), inductionHypothesis.2⟩

/-- The phrases of an accepted source are well formed. -/
theorem wellFormed_of_phrases? {dialect : Dialect} {source : Text} {phrases : List Phrase}
    (accepted : phrases? dialect source = some phrases) :
    ∀ phrase ∈ phrases, phrase.WellFormed dialect := by
  obtain ⟨wellFormed, sameDialect⟩ :=
    Nested.wellFormed_ofDepth dialect (4 * (source.length + 1))
  unfold phrases? at accepted
  split at accepted
  next value found spelled read =>
    cases accepted
    have reads : (Parser.file (Nested.ofDepth dialect (4 * (source.length + 1)))).Reads
        (Phrase.WellFormed (Nested.ofDepth dialect (4 * (source.length + 1))).dialect) :=
      inferInstance
    rw [sameDialect] at reads
    exact reads.ensures _ _ read
  next => cases accepted

end FragmentLint.Grammar
