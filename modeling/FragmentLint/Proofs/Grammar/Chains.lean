import FragmentLint.Proofs.Grammar.Nodes
import FragmentLint.Proofs.Markup.Links

/-!
Contract: the parser of this library's own grammar writes the marks of optional chains as the
grammar of each dialect does.

Main statement: the instance `Scripts.lawfulChains`.

Does not own: which phrases hold marks.
-/

namespace FragmentLint

namespace Grammar

open SyntaxNode

variable {dialect : Dialect} {source : Text} {start : Nat}

theorem kind_of_isMark {node : SyntaxNode} (named : node.isNamed = true)
    (isMark : node.isMark source = true) : node.kind = .optionalChain := by
  unfold SyntaxNode.isMark at isMark
  rw [named, Bool.not_true, Bool.or_false] at isMark
  exact eq_of_beq (Bool.and_eq_true_iff.1 isMark).1

/-- A phrase becomes a mark if it is one. -/
theorem marks_of_mem_concrete {phrase : Phrase} {node : SyntaxNode}
    (stands : Text.StandsAt source start phrase.spell) (member : node ∈ phrase.concrete start)
    (sound : phrase.WellFormed dialect) :
    (node.kind = .optionalChain →
        phrase.isChainMark = true ∧ node.isNamed = true ∧ node.isMark source = true)
      ∧ (node.isMark source = true → node.kind = .optionalChain ∨ phrase.isChainSign = true) := by
  have none (named : node.isNamed = true) (other : node.kind ≠ .optionalChain) :
      (node.kind = .optionalChain →
          phrase.isChainMark = true ∧ node.isNamed = true ∧ node.isMark source = true)
        ∧ (node.isMark source = true → node.kind = .optionalChain ∨ phrase.isChainSign = true) :=
    ⟨fun kind => absurd kind other, fun isMark => absurd (kind_of_isMark named isMark) other⟩
  cases phrase with
  | token text =>
    simp only [Phrase.concrete, List.mem_singleton] at member
    subst member
    refine ⟨Construct.noConfusion, fun isMark => .inr ?_⟩
    have written : Span.Delimits ⟨start, start + Text.bytes text⟩ source "?.".toList :=
      eq_of_beq (Bool.and_eq_true_iff.1 isMark).2
    obtain rfl : "?.".toList = text := written.unique stands
    rfl
  | gap trivia =>
    cases trivia <;> simp only [Phrase.concrete, Trivia.concrete, List.mem_singleton,
      List.not_mem_nil] at member <;> subst member <;> exact none rfl Construct.noConfusion
  | name written =>
    simp only [Phrase.concrete, List.mem_singleton] at member
    subst member
    cases written <;> exact none rfl Construct.noConfusion
  | construct kind parts =>
    simp only [Phrase.concrete, List.mem_singleton] at member
    subst member
    refine ⟨?_, fun isMark => .inl (kind_of_isMark rfl isMark)⟩
    rintro (rfl : kind = .optionalChain)
    cases sound with
    | construct _ mark =>
      have written : Span.Delimits ⟨start, start + Phrase.sizeAll parts⟩ source "?.".toList := by
        rw [Phrase.sizeAll_eq, ← mark rfl]
        simp only [Phrase.spell] at stands
        exact stands
      exact ⟨rfl, rfl, Bool.and_eq_true_iff.2 ⟨rfl, beq_iff_eq.2 written⟩⟩
  | _ =>
    simp only [Phrase.concrete, List.mem_singleton] at member
    subst member
    exact none rfl Construct.noConfusion

/-- The mark of a chain is the only child in its role. -/
theorem kind_of_role {parent child : Construct} {isFirst : Bool}
    (given : role parent child isFirst = some .optionalChain) : child = .optionalChain := by
  unfold role at given
  split at given <;> first | rfl | cases given | skip
  all_goals
    split at given <;> cases given

theorem isMark_give {kind : Construct} {isFirst : Bool} {node : SyntaxNode} :
    (give kind isFirst node).isMark source = node.isMark source := by
  cases node
  rfl

theorem marksChains_construct {kind : Construct} {parts : List Phrase} {field : Option Field}
    (sound : (Phrase.construct kind parts).WellFormed dialect)
    (stands : Text.StandsAt source start (Phrase.spellAll parts)) :
    (inner kind field ⟨start, start + Phrase.sizeAll parts⟩
      (Phrase.concreteAll start parts)).MarksChains dialect source := by
  obtain ⟨admitted, inside⟩ : (∀ part ∈ parts, kind.admits dialect part = true)
      ∧ ∀ part ∈ parts, part.WellFormed dialect := by
    cases sound with
    | construct _ _ admitted inside => exact ⟨admitted, inside⟩
  -- Each child is a node for one of the parts, in its role.
  have cases_child {child : SyntaxNode}
      (member : child ∈ giveAll kind (Phrase.concreteAll start parts)) :
      ∃ phrase ∈ parts, ∃ own isFirst, own.field = none ∧ child = give kind isFirst own
        ∧ (own.kind = .optionalChain →
          phrase.isChainMark = true ∧ own.isNamed = true ∧ own.isMark source = true)
        ∧ (own.isMark source = true → own.kind = .optionalChain ∨ phrase.isChainSign = true) := by
    obtain ⟨own, isOwn, isFirst, rfl⟩ := exists_of_mem_giveAll member
    obtain ⟨phrase, isPart, place, standsPart, inPart⟩ :=
      Phrase.exists_of_mem_concreteAll stands isOwn
    exact ⟨phrase, isPart, own, isFirst, Phrase.field_of_mem_concrete inPart, rfl,
      marks_of_mem_concrete standsPart inPart (inside phrase isPart)⟩
  refine ⟨?_, ?_, ?_, ?_, ?_⟩
  · intro child member isMark
    obtain ⟨phrase, -, own, isFirst, -, rfl, marks, -⟩ := cases_child member
    rw [kind_give] at isMark
    rw [isNamed_give, isMark_give]
    exact (marks isMark).2
  · intro child member inRole
    obtain ⟨phrase, -, own, isFirst, noField, rfl, -⟩ := cases_child member
    rw [kind_give]
    cases own with
    | mk info below =>
      change info.field.or (role kind info.kind isFirst) = _ at inRole
      rw [show info.field = none from noField, Option.none_or] at inRole
      exact kind_of_role inRole
  · intro isBase child member isMark
    obtain ⟨phrase, isPart, own, isFirst, -, rfl, marks, -⟩ := cases_child member
    rw [kind_give] at isMark
    have fits := admitted phrase isPart
    change (kind == .identifier || kind == .undefined || kind == .parenthesized) = true at isBase
    simp only [Bool.or_eq_true, beq_iff_eq] at isBase
    rcases isBase with (rfl | rfl) | rfl <;> simp [Construct.admits, (marks isMark).1] at fits
  · intro isOwn child member isMark
    obtain ⟨phrase, isPart, own, isFirst, -, rfl, -, signs⟩ := cases_child member
    rw [isMark_give] at isMark
    rw [kind_give]
    refine (signs isMark).resolve_right fun isSign => ?_
    have fits := admitted phrase isPart
    change kind = .member ∨ kind = .subscript ∨ kind = .call ∧ dialect = .javascript at isOwn
    rcases isOwn with rfl | rfl | ⟨rfl, rfl⟩ <;> simp [Construct.admits, isSign] at fits
  · rintro (rfl : kind = .call) rfl child member isMark
    obtain ⟨phrase, isPart, own, isFirst, -, rfl, marks, -⟩ := cases_child member
    rw [kind_give] at isMark
    have fits := admitted phrase isPart
    simp [Construct.admits, (marks isMark).1] at fits

/-! ## Names -/

/-- Whether a node is no mark of a chain, in its form and in its role. -/
structure NoMark (source : Text) (node : SyntaxNode) : Prop where
  kind : node.kind ≠ .optionalChain
  field : node.field ≠ some .optionalChain
  sign : node.isMark source = false

theorem noMark_of_isNamed {node : SyntaxNode} (named : node.isNamed = true)
    (kind : node.kind ≠ .optionalChain) (field : node.field ≠ some .optionalChain) :
    NoMark source node :=
  ⟨kind, field, Bool.eq_false_iff.2 fun isMark => kind (kind_of_isMark named isMark)⟩

/-- The mark of a chain is longer than one byte. -/
theorem noMark_sign {c : Char} (short : c.utf8Size = 1) : NoMark source (sign start [c]) := by
  refine ⟨Construct.noConfusion, (fun role => by cases role), Bool.eq_false_iff.2 fun isMark => ?_⟩
  have written : Text.slice? source start (start + Text.bytes [c]) = some "?.".toList :=
    eq_of_beq (Bool.and_eq_true_iff.1 isMark).2
  have stop := Text.stop_of_slice? written
  have size : Text.bytes "?.".toList = 2 := by decide
  rw [size, Text.bytes_cons, short, Text.bytes_nil] at stop
  omega

theorem Trivia.noMark_concreteAll {pieces : List Trivia} {node : SyntaxNode}
    (member : node ∈ Trivia.concreteAll start pieces) : NoMark source node := by
  induction pieces generalizing start with
  | nil => cases member
  | cons first rest inductionHypothesis =>
    rcases List.mem_append.1 member with isFirst | inRest
    · cases first <;>
        simp only [Trivia.concrete, List.mem_singleton, List.not_mem_nil] at isFirst <;>
        subst isFirst <;>
        exact noMark_of_isNamed rfl Construct.noConfusion fun role => by cases role
    · exact inductionHypothesis inRest

theorem TagName.noMark_concrete {written : TagName} {field : Option Field}
    (other : field ≠ some .optionalChain) : NoMark source (written.concrete start field) := by
  cases written <;> exact noMark_of_isNamed rfl Construct.noConfusion other

/-- No marks stand in names. -/
theorem TagName.marksChains_concrete {written : TagName} {field : Option Field} :
    (written.concrete start field).MarksChains dialect source := by
  have noMark : ∀ child ∈ (written.concrete start field).children, NoMark source child := by
    intro child member
    cases written with
    | simple => cases member
    | member object before after property =>
      simp only [TagName.concrete, SyntaxNode.children_mk, List.mem_append, List.mem_cons,
        List.not_mem_nil, or_false] at member
      rcases member with ((rfl | inFront) | (rfl | inBack)) | rfl
      · exact TagName.noMark_concrete (by decide)
      · exact Trivia.noMark_concreteAll inFront
      · exact noMark_sign rfl
      · exact Trivia.noMark_concreteAll inBack
      · exact noMark_of_isNamed rfl Construct.noConfusion fun role => by cases role
    | qualified space before after suffix =>
      simp only [TagName.concrete, SyntaxNode.children_mk, List.mem_append, List.mem_cons,
        List.not_mem_nil, or_false] at member
      rcases member with ((rfl | inFront) | (rfl | inBack)) | rfl
      · exact noMark_of_isNamed rfl Construct.noConfusion fun role => by cases role
      · exact Trivia.noMark_concreteAll inFront
      · exact noMark_sign rfl
      · exact Trivia.noMark_concreteAll inBack
      · exact noMark_of_isNamed rfl Construct.noConfusion fun role => by cases role
  refine ⟨fun child member isMark => absurd isMark (noMark child member).kind,
    fun child member role => absurd role (noMark child member).field,
    fun _ child member => (noMark child member).kind, fun _ child member isMark => ?_,
    fun _ _ child member => (noMark child member).kind⟩
  rw [(noMark child member).sign] at isMark
  cases isMark

/-! ## Whole trees -/

theorem kind_of_isChained {node : SyntaxNode} (chained : node.isChained = true) :
    node.kind ∈ ([.identifier, .undefined, .parenthesized, .member, .subscript, .call]
      : List Construct) := by
  simpa [isChained, isBase, or_assoc] using chained

/-- The marks along all chains are as a dialect has them. -/
theorem marksChains_concrete (sound : (concrete dialect source).hasError = false)
    {node : SyntaxNode} (member : node ∈ (concrete dialect source).parts)
    (chained : node.isChained = true) : node.MarksChains dialect source := by
  cases made_of_mem_parts sound member with
  | construct sound stands => exact marksChains_construct sound stands
  | name => exact TagName.marksChains_concrete
  | @token info isToken =>
    have kinds := kind_of_isChained chained
    change info.kind ∈ _ at kinds
    simp only [List.mem_cons, List.not_mem_nil, or_false] at kinds
    rcases kinds with kind | kind | kind | kind | kind | kind <;> rw [kind] at isToken <;>
      cases isToken
  | special special =>
    cases special with
    | @comment info _ isComment =>
      have kinds := kind_of_isChained chained
      rw [show (mk info []).kind = .comment from isComment] at kinds
      exact absurd kinds (by decide)
    | opening isTag => rcases isTag with rfl | rfl <;> cases chained
    | _ => cases chained
  | closing => cases chained
  | root => cases chained

end Grammar

open Scripts in
/-- The parser of this library's own grammar writes marks as the grammar of each dialect does. -/
scoped instance Scripts.lawfulChains : @LawfulChains Scripts.parser :=
  @LawfulChains.mk Scripts.parser fun {dialect source root} parsed sound => by
    obtain rfl : Grammar.concrete dialect source = root := Option.some.inj parsed
    exact fun node member chained => Grammar.marksChains_concrete sound member chained

end FragmentLint
