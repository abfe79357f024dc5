import FragmentLint.Proofs.Grammar.Nodes

/-!
Contract: the parser of this library's own grammar keeps comments apart from everything else.

Main statement: the instance `Scripts.lawfulComments`.

Does not own: what the nodes are made of.
-/

namespace FragmentLint

namespace Grammar

open SyntaxNode

variable {source : Text} {start stop : Nat}

/-! ## Braces -/

/-- A mark that closes a block comment is found, if it is there. -/
theorem Trivia.splitBlock?_ne_none (body rest : Text) :
    Trivia.splitBlock? (body ++ '*' :: '/' :: rest) ≠ none := by
  induction body with
  | nil => simp [Trivia.splitBlock?]
  | cons c body inductionHypothesis =>
    rw [List.cons_append]
    unfold Trivia.splitBlock?
    split
    next nothing => cases nothing
    next => simp
    next same =>
      obtain ⟨-, rfl⟩ := List.cons.inj same
      simpa using inductionHypothesis

/-- Text at which no trivia begins stands out, unless it is empty. -/
theorem standsOut_of_next? {text behind : Text} (occupied : text ≠ [])
    (none : Trivia.next? true (text ++ behind) = none) : text.StandsOut := by
  refine ⟨?_, ?_, ?_⟩
  · obtain ⟨c, rest, rfl⟩ := List.exists_cons_of_ne_nil occupied
    refine ⟨c, rest, rfl, Bool.eq_false_iff.2 fun blank => ?_⟩
    have fits : Trivia.Fits (.space (c :: (rest ++ behind).takeWhile Trivia.isSpace))
        ((rest ++ behind).dropWhile Trivia.isSpace) := by
      refine .space (fun d member => ?_) (Trivia.head?_dropWhile _)
      rcases List.mem_cons.1 member with rfl | inRun
      · exact blank
      · exact List.mem_takeWhile_imp inRun
    have whole : c :: rest ++ behind
        = (Trivia.space (c :: (rest ++ behind).takeWhile Trivia.isSpace)).spell
          ++ (rest ++ behind).dropWhile Trivia.isSpace := by
      simp [Trivia.spell]
    rw [Trivia.next?_eq_some_iff.2 ⟨whole, fits⟩] at none
    cases none
  · rintro ⟨rest, rfl⟩
    cases none
  · rintro body rest rfl
    have closes := Trivia.splitBlock?_ne_none body (rest ++ behind)
    obtain ⟨⟨inner, after⟩, split⟩ := Option.ne_none_iff_exists'.1 closes
    simp only [List.cons_append, List.append_assoc] at none
    unfold Trivia.next? Trivia.nextPlain? at none
    simp only [split] at none
    cases none

namespace Phrase

variable {dialect : Dialect}

/-- A value becomes a node with a name that is no comment. -/
theorem exists_of_isValue {phrase : Phrase} (value : phrase.isValue = true)
    (sound : phrase.WellFormed dialect) (start : Nat) :
    ∃ node ∈ concrete start phrase, node.isNamed = true ∧ node.kind ≠ .comment := by
  cases phrase with
  | construct kind parts =>
    simp only [concrete, List.mem_singleton, exists_eq_left]
    refine ⟨rfl, ?_⟩
    rintro (rfl : kind = .comment)
    cases sound with
    | construct plain => cases plain
  | selfClosing =>
    simp only [concrete, List.mem_singleton, exists_eq_left]
    exact ⟨rfl, Construct.noConfusion⟩
  | element =>
    simp only [concrete, List.mem_singleton, exists_eq_left]
    exact ⟨rfl, Construct.noConfusion⟩
  | gap trivia =>
    cases trivia with
    | hidden =>
      simp only [concrete, Trivia.concrete, List.mem_singleton, exists_eq_left]
      exact ⟨rfl, Construct.noConfusion⟩
    | _ => cases value
  | _ => cases value

/-- Each of several phrases in a row has its nodes among those for all of them. -/
theorem exists_subset_concreteAll {phrases : List Phrase} {phrase : Phrase}
    (member : phrase ∈ phrases) (start : Nat) :
    ∃ place, concrete place phrase ⊆ concreteAll start phrases := by
  induction phrases generalizing start with
  | nil => cases member
  | cons first rest inductionHypothesis =>
    simp only [concreteAll]
    rcases List.mem_cons.1 member with rfl | inRest
    · exact ⟨start, List.subset_append_left _ _⟩
    · obtain ⟨place, subset⟩ := inductionHypothesis inRest (start + first.size)
      exact ⟨place, fun node isNode => List.mem_append_right _ (subset isNode)⟩

end Phrase

/-- The first piece of several that were read off a text, and the rest. -/
theorem Trivia.exists_of_readAll {bound text rest : Text} {piece : Trivia} {pieces : List Trivia}
    (read : readAll bound text = (piece :: pieces, rest)) :
    Fits piece (spellAll pieces ++ rest) ∧ ∃ bound text, readAll bound text = (pieces, rest) := by
  cases bound with
  | nil => cases read
  | cons _ bound =>
    unfold readAll at read
    split at read
    next first behind found =>
      obtain ⟨firstEq, rfl⟩ := Prod.mk.inj read
      obtain ⟨rfl, rfl⟩ := List.cons.inj firstEq
      rw [spellAll_readAll]
      exact ⟨(next?_eq_some_iff.1 found).2, bound, behind, rfl⟩
    next => cases read

theorem Phrase.spellAll_gaps (pieces : List Trivia) :
    Phrase.spellAll (pieces.map .gap) = Trivia.spellAll pieces := by
  induction pieces with
  | nil => simp [Trivia.spellAll]
  | cons piece pieces inductionHypothesis =>
    rw [List.map_cons, spellAll_cons, inductionHypothesis, spell]
    exact List.flatMap_cons.symm

theorem standsOut_of_isMark {mark tail : Text}
    (isMark : mark = "<!--".toList ∨ mark = "-->".toList) : Text.StandsOut (mark ++ tail) := by
  rcases isMark with rfl | rfl
  · exact ⟨⟨'<', _, rfl, rfl⟩, by simp, by simp⟩
  · exact ⟨⟨'-', _, rfl, rfl⟩, by simp, by simp⟩

section Braces

variable {dialect : Dialect} {behind : Text} {others : List Phrase}
  (none : Trivia.next? true (Phrase.spellAll others ++ '}' :: behind) = none)
  (value : others = [] ∨ (∃ phrase ∈ others, phrase.isValue = true)
    ∧ (Phrase.spellAll others ++ '}' :: behind).head? ≠ some '}')
  (sound : ∀ phrase ∈ others, phrase.WellFormed dialect)

include none value sound

/-- A value in braces, or nothing, fills what trivia leaves of them. -/
theorem fillsBraces_of_value (stands : Text.StandsAt source start (Phrase.spellAll others)) :
    FillsBraces source start ((Phrase.concreteAll start others).filter (·.isNamed))
      (start + Text.bytes (Phrase.spellAll others)) := by
  rcases value with rfl | ⟨⟨phrase, member, isValue⟩, opens⟩
  · exact .blank stands (by simp)
  · have occupied : Phrase.spellAll others ≠ [] := by
      intro nothing
      rw [nothing] at opens
      exact opens rfl
    obtain ⟨place, subset⟩ := Phrase.exists_subset_concreteAll member start
    obtain ⟨node, isNode, named, other⟩ :=
      Phrase.exists_of_isValue isValue (sound phrase member) place
    exact @FillsBraces.expression source start _ [] _ _ stands (by simp)
      (standsOut_of_next? occupied none) ⟨node, List.mem_filter.2 ⟨subset isNode, named⟩, other⟩

/-- All the trivia at the front of braces, and a value behind it or nothing, fills them. -/
theorem fillsBraces_concreteAll {bound text : Text} {pieces : List Trivia}
    (read : Trivia.readAll bound text = (pieces, Phrase.spellAll others ++ '}' :: behind))
    (stands : Text.StandsAt source start (Phrase.spellAll (pieces.map .gap ++ others))) :
    FillsBraces source start
      ((Phrase.concreteAll start (pieces.map .gap ++ others)).filter (·.isNamed))
      (start + Text.bytes (Phrase.spellAll (pieces.map .gap ++ others))) := by
  induction pieces generalizing bound text start with
  | nil => exact fillsBraces_of_value none value sound stands
  | cons piece pieces inductionHypothesis =>
    obtain ⟨fits, bound, text, read⟩ := Trivia.exists_of_readAll read
    rw [← List.append_assoc, ← Phrase.spellAll_gaps, ← Phrase.spellAll_append] at fits
    have nothing : Span.Delimits ⟨start, start⟩ source [] :=
      @Text.StandsAt.front source [] _ _ stands
    rw [List.map_cons, List.cons_append, Phrase.spellAll_cons, Phrase.spell] at stands ⊢
    have filled := inductionHypothesis read stands.back
    rw [Text.bytes_append, ← Nat.add_assoc]
    simp only [Phrase.concreteAll, Phrase.concrete, Phrase.size]
    generalize Phrase.spellAll (pieces.map .gap ++ others) = tail at fits stands filled ⊢
    cases fits with
    | space blank => exact filled.behind stands.front blank
    | @line body _ onLine ends =>
      refine .line nothing (by simp) rfl stands.front onLine (fun later delimits => ?_) filled
      rw [delimits.unique stands.back]
      cases tail with
      | nil => exact absurd (ends '}' rfl) (by decide)
      | cons c tail => exact ⟨c, rfl, ends c rfl⟩
    | block closed =>
      exact .block nothing (by simp) rfl stands.front
        ((Trivia.splitBlock?_eq_some_iff []).1 (closed [])) filled
    | @hidden mark rest _ isMark =>
      -- A hidden line is what stands in the braces, as far as comments go.
      have standsOut : Text.StandsOut (mark ++ (rest ++ tail)) := standsOut_of_isMark isMark
      rw [← List.append_assoc] at standsOut
      have whole : Text.StandsAt source start ((mark ++ rest) ++ tail) := stands
      unfold Text.StandsAt at whole
      rw [Text.bytes_append, ← Nat.add_assoc] at whole
      exact @FillsBraces.expression source start _ [] _ _ whole (by simp) standsOut
        ⟨_, List.mem_cons_self, Construct.noConfusion⟩

end Braces

/-- Children that have no roles are given none. -/
theorem giveAll_eq_self {kind : Construct}
    (noRoles : ∀ child isFirst, role kind child isFirst = none) (children : List SyntaxNode) :
    giveAll kind children = children := by
  have same (isFirst : Bool) (node : SyntaxNode) : give kind isFirst node = node := by
    cases node with
    | mk info below =>
      rw [give, noRoles, Option.or_none]
  cases children with
  | nil => rfl
  | cons first rest =>
    rw [giveAll, same, funext (same false), List.map_id']

theorem fillsBraces_enclosed {dialect : Dialect} {inside : List Phrase} {field : Option Field}
    (sound : (Phrase.container inside).WellFormed dialect)
    (stands : Text.StandsAt source (start + 1) (Phrase.spellAll inside)) {node : SyntaxNode}
    (isNode : node = enclosed .jsxExpression field start ['\x7b'] ['\x7d']
      (Phrase.sizeAll inside) (Phrase.concreteAll (start + 1) inside)) :
    FillsBraces source (node.span.start + 1) node.namedChildren (node.span.stop - 1) := by
  obtain ⟨text, behind, pieces, others, rfl, rfl, read, value⟩ : Phrase.FillsBraces inside := by
    cases sound with
    | container fills _ => exact fills
  have inside : ∀ phrase ∈ others, phrase.WellFormed dialect := by
    cases sound with
    | container _ sound => exact fun phrase member => sound phrase (List.mem_append_right _ member)
  have none : Trivia.next? true (Phrase.spellAll others ++ '}' :: behind) = none := by
    have behindAll := Trivia.next?_readAll (Nat.le_refl
      (Phrase.spellAll (pieces.map .gap ++ others) ++ '}' :: behind).length)
    rwa [read] at behindAll
  have filled := fillsBraces_concreteAll none value inside read stands
  have size : Text.bytes ['\x7b'] = 1 ∧ Text.bytes ['\x7d'] = 1 := by decide
  have children : node.namedChildren
      = (Phrase.concreteAll (start + 1) (pieces.map .gap ++ others)).filter (·.isNamed) := by
    rw [isNode, namedChildren, enclosed, inner, SyntaxNode.children_mk,
      giveAll_eq_self fun _ _ => rfl]
    simp [sign, leaf, SyntaxNode.isNamed]
  have span : node.span
      = ⟨start, start + 1 + Text.bytes (Phrase.spellAll (pieces.map .gap ++ others)) + 1⟩ := by
    rw [isNode, span_enclosed, Phrase.sizeAll_eq, size.1, size.2]
  rw [children, span]
  exact filled

/-! ## Texts and literals -/

theorem comments_of_mem_content {phrase : Phrase} (isContent : phrase.IsContent) {node : SyntaxNode}
    (member : node ∈ Phrase.concrete start phrase)
    (noChild : ¬ (node.isNamed && node.isStructural) = true) : node.comments = [] := by
  cases phrase with
  | gap trivia =>
    cases trivia with
    | hidden =>
      simp only [Phrase.concrete, Trivia.concrete, List.mem_singleton] at member
      rw [member]
      simp [leaf, comments, commentsOfAll]
    | _ => cases isContent
  | token =>
    simp only [Phrase.concrete, List.mem_singleton] at member
    rw [member]
    simp [sign, leaf, comments, commentsOfAll]
  | construct => cases isContent
  | name => cases isContent
  | quoted => cases isContent
  | attr => cases isContent
  | _ =>
    simp only [Phrase.concrete, List.mem_singleton] at member
    rw [member] at noChild
    exact absurd rfl noChild

theorem comments_of_mem_concreteContent {content : List Phrase}
    (isContent : ∀ part ∈ content, part.IsContent) {node : SyntaxNode}
    (member : node ∈ Phrase.concreteContent start content)
    (noChild : ¬ (node.isNamed && node.isStructural) = true) : node.comments = [] := by
  induction content generalizing start with
  | nil => simp only [Phrase.concreteContent, List.not_mem_nil] at member
  | cons phrase rest inductionHypothesis =>
    obtain ⟨first, others⟩ := List.forall_mem_cons.1 isContent
    cases phrase with
    | token text =>
      simp only [Phrase.concreteContent] at member
      rcases List.mem_cons.1 member with rfl | inRest
      · simp [leaf, comments, commentsOfAll]
      · exact inductionHypothesis others inRest
    | _ =>
      simp only [Phrase.concreteContent] at member
      rcases List.mem_append.1 member with own | inRest
      · exact comments_of_mem_content first own noChild
      · exact inductionHypothesis others inRest

/-- Behind the name of an attribute there are comments, markup, braces, and tokens. -/
theorem comments_of_isBehindName {phrase : Phrase} (isBehind : phrase.IsBehindName)
    {node : SyntaxNode} (member : node ∈ Phrase.concrete start phrase)
    (other : node.kind ≠ .comment) (noMarkup : node.isMarkup = false)
    (noBraces : node.kind ≠ .jsxExpression) : node.comments = [] := by
  cases phrase with
  | gap trivia =>
    cases trivia <;> simp only [Phrase.concrete, Trivia.concrete, List.mem_singleton,
      List.not_mem_nil] at member <;> rw [member] at other ⊢
    · exact absurd rfl other
    · exact absurd rfl other
    · simp [leaf, comments, commentsOfAll]
  | token =>
    simp only [Phrase.concrete, List.mem_singleton] at member
    rw [member]
    simp [sign, leaf, comments, commentsOfAll]
  | quoted =>
    simp only [Phrase.concrete, List.mem_singleton] at member
    rw [member]
    simp [leaf, comments, commentsOfAll]
  | construct => cases isBehind
  | name => cases isBehind
  | attr => cases isBehind
  | container =>
    simp only [Phrase.concrete, List.mem_singleton] at member
    rw [member] at noBraces
    exact absurd rfl noBraces
  | _ =>
    simp only [Phrase.concrete, List.mem_singleton] at member
    rw [member] at noMarkup
    cases noMarkup

theorem comments_of_literal? {given value : SyntaxNode} {parts : List Phrase}
    (isAttribute : Phrase.IsAttribute parts)
    (stands : Text.StandsAt source start (Phrase.spellAll parts))
    (children : given.children = Phrase.concreteAll start parts)
    (literal : given.literal? = some value) : value.comments = [] := by
  obtain ⟨written, others, rfl, behind⟩ := isAttribute
  rw [Phrase.spellAll_cons] at stands
  unfold literal? at literal
  obtain ⟨second, noOther⟩ := Option.filter_eq_some_iff.1 literal
  have first : (written.concrete start none).isNamed
      && (written.concrete start none).kind != .comment := by
    cases written <;> rfl
  obtain ⟨named, kind⟩ := Bool.and_eq_true_iff.1 first
  simp only [namedChildren, children, Phrase.concreteAll, Phrase.concrete, List.cons_append,
    List.nil_append, List.filter_cons, named, kind, if_true, List.getElem?_cons_succ] at second
  have member := List.mem_of_getElem? second
  obtain ⟨inNamed, other⟩ := List.mem_filter.1 member
  have standsBehind := stands.back
  rw [← Phrase.size_eq] at standsBehind
  obtain ⟨phrase, isPhrase, place, -, isNode⟩ :=
    Phrase.exists_of_mem_concreteAll standsBehind (List.mem_filter.1 inNamed).1
  simp only [Bool.and_eq_true, Bool.not_eq_true', bne_iff_ne] at noOther other
  exact comments_of_isBehindName (behind phrase isPhrase) isNode other noOther.1 noOther.2

/-! ## Whole trees -/

/-- Where nothing is missing, comments are kept apart from everything else. -/
theorem keepsComments_concrete {dialect : Dialect} {source : Text}
    (sound : (concrete dialect source).hasError = false) :
    (concrete dialect source).KeepsComments source := by
  have special {node : SyntaxNode} (member : node ∈ (concrete dialect source).parts)
      {kind : Construct} (kindEq : node.kind = kind) (isSpecial : kind.isSpecial = true) :
      Special dialect source node :=
    (made_of_mem_parts sound member).isSpecial (kindEq ▸ isSpecial)
  refine ⟨?_, ?_, ?_, ?_⟩
  · intro node member isComment
    cases special member isComment rfl with
    | comment _ written => exact ⟨rfl, _, written⟩
    | opening isTag => rcases isTag with rfl | rfl <;> cases isComment
    | _ => cases isComment
  · intro node member isElement opening content closing childrenEq child inContent noChild
    cases special member isElement rfl with
    | @element first last phrases start field span isContent =>
      rw [inner, SyntaxNode.children_mk, giveAll_eq_self fun _ _ => rfl] at childrenEq
      obtain ⟨-, behind⟩ := List.cons.inj childrenEq
      obtain ⟨contentEq, -⟩ := List.append_inj' behind rfl
      rw [← contentEq] at inContent
      exact comments_of_mem_concreteContent isContent inContent noChild
    | @comment info _ isComment =>
      rw [show info.kind = .jsxElement from isElement] at isComment
      cases isComment
    | opening isTag => rcases isTag with rfl | rfl <;> cases isElement
    | _ => cases isElement
  · intro given member isGiven value literal
    cases special member isGiven rfl with
    | attr isAttribute stands =>
      refine comments_of_literal? isAttribute stands ?_ literal
      exact giveAll_eq_self (fun _ _ => rfl) _
    | @comment info _ isComment =>
      rw [show info.kind = .jsxAttribute from isGiven] at isComment
      cases isComment
    | opening isTag => rcases isTag with rfl | rfl <;> cases isGiven
    | _ => cases isGiven
  · intro node member isBraces
    generalize nodeEq : node = same at member isBraces ⊢
    cases special member isBraces rfl with
    | braces sound stands => exact fillsBraces_enclosed sound stands rfl
    | @comment info _ isComment =>
      rw [show info.kind = .jsxExpression from isBraces] at isComment
      cases isComment
    | opening isTag => rcases isTag with rfl | rfl <;> cases isBraces
    | _ => cases isBraces

end Grammar

open Scripts in
/-- The parser of this library's own grammar keeps comments apart from everything else. -/
scoped instance Scripts.lawfulComments : @LawfulComments Scripts.parser :=
  @LawfulComments.mk Scripts.parser fun {dialect source root} parsed sound => by
    obtain rfl : Grammar.concrete dialect source = root := Option.some.inj parsed
    exact Grammar.keepsComments_concrete sound

end FragmentLint
