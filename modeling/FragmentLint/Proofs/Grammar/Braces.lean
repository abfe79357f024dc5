import FragmentLint.Proofs.Grammar.Types

/-!
Contract: braces, attributes and the content of elements are read as well-formed phrases.

The trivia behind an opening brace is read as far as it goes, before anything else is looked for. What
is looked for holds a value, and does not begin at a closing brace. So braces in which there is no value
hold trivia only (`fillsBraces_of_read`). Of an attribute the name is read first, and no other one
behind it. Between two tags trivia is looked for only at the first mark of hidden lines.

Does not own: what expressions are.
-/

namespace FragmentLint.Grammar.Parser

open Phrase (WellFormed)

variable {α β : Type} {dialect : Dialect} {nested : Nested}

/-- What is read by two parsers is what the first one reads and what the second one reads behind it. -/
theorem exists_of_bind {first : Parser β} {second : β → Parser α} {input : Text}
    {parsed : Parsed α input} (read : (first >>= second) input = some parsed) :
    ∃ left right, first input = some left ∧ second left.value left.rest = some right
      ∧ parsed.phrases = left.phrases ++ right.phrases ∧ parsed.rest = right.rest := by
  change Parser.bind first second input = some parsed at read
  unfold Parser.bind at read
  split at read
  next => cases read
  next left leftRead =>
    split at read
    next => cases read
    next right rightRead =>
      cases read
      exact ⟨left, right, leftRead, rightRead, rfl, rfl⟩

/-- What is optional is read, or nothing is. -/
theorem optional_cases {inner : Parser Unit} {input : Text} {parsed : Parsed Unit input}
    (read : optional inner input = some parsed) :
    inner input = some parsed ∨ parsed.phrases = [] ∧ parsed.rest = input := by
  change Parser.orElse inner (fun _ => pure ()) input = some parsed at read
  unfold Parser.orElse at read
  split at read
  next found innerRead =>
    obtain rfl := Option.some.inj read
    exact .inl innerRead
  next =>
    obtain rfl := Option.some.inj read
    exact .inr ⟨rfl, rfl⟩

/-! ## Gaps -/

theorem trivia_cases (hiddenToo : Bool) (input : Text) :
    Trivia.next? hiddenToo input = none ∧ trivia hiddenToo input = none
      ∨ ∃ piece rest spelled, Trivia.next? hiddenToo input = some (piece, rest)
        ∧ trivia hiddenToo input = some ⟨(), [.gap piece], rest, spelled⟩ := by
  unfold trivia
  split
  next missing => exact .inl ⟨missing, rfl⟩
  next piece rest found =>
    refine .inr ⟨piece, rest, ?_, found, rfl⟩
    simp [Phrase.spell, Trivia.spell_of_next? found]

theorem repeatAlong_trivia (bound input : Text) :
    (repeatAlong (trivia true) bound input).phrases = (Trivia.readAll bound input).1.map .gap
      ∧ (repeatAlong (trivia true) bound input).rest = (Trivia.readAll bound input).2 := by
  induction bound generalizing input with
  | nil => exact ⟨rfl, rfl⟩
  | cons _ bound inductionHypothesis =>
    rw [repeatAlong, Trivia.readAll]
    rcases trivia_cases true input with ⟨missing, read⟩ | ⟨piece, rest, _, found, read⟩
    · rw [missing, read]
      exact ⟨rfl, rfl⟩
    · rw [found, read]
      obtain ⟨phrasesEq, restEq⟩ := inductionHypothesis rest
      exact ⟨congrArg (Phrase.gap piece :: ·) phrasesEq, restEq⟩

/-- The gaps at the front of a text are all the trivia there. -/
theorem gaps_eq {input : Text} {parsed : Parsed Unit input} (read : gaps input = some parsed) :
    parsed.phrases = (Trivia.readAll input input).1.map .gap
      ∧ parsed.rest = (Trivia.readAll input input).2 := by
  obtain rfl := Option.some.inj read
  exact repeatAlong_trivia input input

/-! ## Braces -/

/-- Where gaps are read, then something that holds a value and does not begin at a closing brace, if it is
there, and gaps again, up to a closing brace, this fills the braces. -/
theorem fillsBraces_of_read {value : Parser Unit} [yields : value.YieldsValue]
    (refuses : value.RefusesBrace) {input behind : Text} {parsed : Parsed Unit input}
    (read : (do gaps; optional value; gaps : Parser Unit) input = some parsed)
    (closes : parsed.rest = '}' :: behind) : Phrase.FillsBraces parsed.phrases := by
  obtain ⟨first, others, firstRead, othersRead, phrasesEq, restEq⟩ := exists_of_bind read
  obtain ⟨middle, last, middleRead, lastRead, othersEq, othersRestEq⟩ := exists_of_bind othersRead
  obtain ⟨firstEq, firstRestEq⟩ := gaps_eq firstRead
  have inputEq : input = Phrase.spellAll parsed.phrases ++ '}' :: behind := by
    rw [← closes, parsed.spelled]
  have firstRest : first.rest = Phrase.spellAll others.phrases ++ '}' :: behind := by
    rw [← closes, restEq, others.spelled]
  refine ⟨input, behind, (Trivia.readAll input input).1, others.phrases, inputEq, ?_, ?_, ?_⟩
  · rw [phrasesEq, firstEq]
  · rw [← firstRest, firstRestEq]
  · rcases optional_cases middleRead with valueRead | ⟨middleEq, middleRestEq⟩
    · right
      refine ⟨?_, ?_⟩
      · obtain ⟨phrase, member, isValue⟩ := yields.ensures _ _ valueRead
        exact ⟨phrase, othersEq ▸ List.mem_append_left _ member, isValue⟩
      · intro brace
        obtain ⟨rest, textEq⟩ := List.head?_eq_some_iff.1 brace
        rw [← firstRest] at textEq
        have nothing : value first.rest = none := textEq ▸ refuses rest
        rw [nothing] at valueRead
        cases valueRead
    · -- All the trivia is in front already, so the second gaps are none.
      left
      have none : Trivia.next? true first.rest = none := by
        rw [firstRestEq]
        exact Trivia.next?_readAll (Nat.le_refl _)
      obtain ⟨lastEq, -⟩ := gaps_eq lastRead
      rw [othersEq, middleEq, lastEq, middleRestEq, Trivia.readAll_of_none none]
      rfl

theorem wellFormed_container {inner : Parser Unit} (read : inner.Reads (WellFormed dialect))
    (fills : ∀ input parsed behind, inner input = some parsed → parsed.rest = '}' :: behind →
      Phrase.FillsBraces parsed.phrases) : (container inner).Reads (WellFormed dialect) := by
  constructor
  intro input parsed found
  unfold container at found
  split at found
  next afterOpen =>
    split at found
    next phrases rest spelled innerRead =>
      cases found
      intro phrase member
      obtain rfl := List.mem_singleton.1 member
      exact .container (fills _ _ _ innerRead rfl) (read.ensures _ _ innerRead)
    next => cases found
  next => cases found

theorem refuses_value [nested.WellFormed] :
    (spread nested <|> expressions nested .bracket).RefusesBrace := by
  intro rest
  have noSpread : spread nested ('}' :: rest) = none := rfl
  have noExpression : expressions nested .bracket ('}' :: rest) = none := by
    unfold expressions grow
    rw [Nested.WellFormed.refuses_expression .bracket rest]
  change Parser.orElse (spread nested) (fun _ => expressions nested .bracket) _ = none
  unfold Parser.orElse
  rw [noSpread]
  exact noExpression

instance [nested.WellFormed] : (braces nested).Reads (WellFormed nested.dialect) := by
  unfold braces
  refine wellFormed_container inferInstance ?_
  intro input parsed behind read closes
  have yields : (spread nested <|> expressions nested .bracket).YieldsValue := by
    unfold spread expressions
    infer_instance
  exact fillsBraces_of_read refuses_value read closes

/-! ## Attributes -/

section Attributes

open Phrase (IsBehindName IsAttribute)

instance (scan : Text → Option Nat) : (token scan).Reads IsBehindName :=
  reads_token scan fun _ => trivial

instance (hiddenToo : Bool) : (trivia hiddenToo).Reads IsBehindName :=
  reads_trivia hiddenToo fun _ => trivial

instance : gaps.Reads IsBehindName := by
  unfold gaps
  infer_instance

instance (literal : String) : (symbol literal).Reads IsBehindName := by
  unfold symbol
  infer_instance

instance (scan : Text → Option Nat) : (quoted scan).Reads IsBehindName :=
  reads_quoted scan fun _ => trivial

instance (inner : Parser Unit) : (container inner).Reads IsBehindName :=
  reads_container inner fun _ => trivial

instance (inner : Parser Unit) [read : inner.Reads Phrase.IsMarkup] : inner.Reads IsBehindName :=
  ⟨read.ensures.mono fun _ _ isMarkup phrase member => (isMarkup phrase member).isBehindName⟩

theorem wellFormed_attr {inner : Parser Unit} (read : inner.Reads (WellFormed dialect))
    (isAttribute : inner.Ensures fun _ => IsAttribute) :
    (attr inner).Reads (WellFormed dialect) := by
  refine ⟨.wrap ?_⟩
  intro input parsed found phrase member
  obtain rfl := List.mem_singleton.1 member
  exact .attr (isAttribute _ _ found) (read.ensures _ _ found)

/-- What is read behind a name makes up an attribute with it. -/
theorem isAttribute_of_read {value : Parser Unit} [read : value.Reads IsBehindName] :
    (attributeName >>= fun _ => value).Ensures fun _ => IsAttribute := by
  refine attributeName_ensures.bind ?_
  rintro _ _ ⟨written, rfl⟩ input parsed found
  exact ⟨written, parsed.phrases, rfl, read.ensures _ _ found⟩

instance [nested.WellFormed] : (tagAttribute nested).Reads (WellFormed nested.dialect) := by
  unfold tagAttribute
  refine wellFormed_attr inferInstance ?_
  have inBraces : (braces nested).Reads IsBehindName := by
    unfold braces
    infer_instance
  have inElement : nested.element.Reads Phrase.IsMarkup := inferInstance
  exact isAttribute_of_read

end Attributes

/-! ## Content of elements -/

section Content

open Phrase (IsMarkup IsContent)

instance (opening content closing : Parser Unit) :
    (element opening content closing).Reads IsMarkup :=
  reads_element opening content closing (fun _ => rfl) fun _ _ _ => rfl

instance (scan : Text → Option Nat) : (token scan).Reads IsContent :=
  reads_token scan fun _ => trivial

instance (inner : Parser Unit) : (container inner).Reads IsContent :=
  reads_container inner fun _ => trivial

/-- Trivia at the first mark of hidden lines is a hidden line. -/
theorem reads_hidden :
    (do check (Lexeme.begins "<!--"); trivia true : Parser Unit).Reads IsContent := by
  constructor
  intro input parsed read phrase member
  obtain ⟨first, second, checked, triviaRead, phrasesEq, -⟩ := exists_of_bind read
  unfold check at checked
  split at checked
  next begins =>
    obtain rfl := Option.some.inj checked
    rw [phrasesEq, List.nil_append] at member
    rcases trivia_cases true input with ⟨-, none⟩ | ⟨piece, rest, _, found, some⟩
    · rw [none] at triviaRead
      cases triviaRead
    · rw [some] at triviaRead
      obtain rfl := Option.some.inj triviaRead
      obtain rfl := List.mem_singleton.1 member
      exact Trivia.isHidden_of_next? (List.isPrefixOf_iff_prefix.1 begins) found
  next => cases checked

instance [nested.WellFormed] : (content nested).Reads IsContent := by
  have isMarkup : nested.element.Reads IsMarkup := inferInstance
  have isContent : nested.element.Reads IsContent :=
    ⟨isMarkup.ensures.mono fun _ _ isMarkup phrase member => (isMarkup phrase member).isContent⟩
  have hidden := reads_hidden
  unfold content braces
  infer_instance

end Content

end FragmentLint.Grammar.Parser
