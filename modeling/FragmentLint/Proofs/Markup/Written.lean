import FragmentLint.Proofs.Markup.Records

/-!
Contract: everything in the tree of an accepted source is read off a node of its concrete tree.

Roots hold the markup for which they stand, elements and fragments are read off markup, and what
stands in elements and in braces is read off the nodes there. What an outline is read off hands on
to what it holds. Main statements: `written_roots`, `exists_written`.

Owns: what it means to be written.
Does not own: what follows for the parts of an element.
-/

namespace FragmentLint

namespace Outline

open SyntaxNode Lowering

/-- What the outlines below a kind of parent are read off. -/
inductive Written (source : Text) (root : SyntaxNode) : Option NodeKind → Outline → Prop where
  /-- Markup that is no content of other markup, with its root. -/
  | root {ancestors : List SyntaxNode} {part : SyntaxNode} (inRoot : part ∈ root.parts)
      (markup : part.isMarkup = true) :
      Written source root none (under (contextOf source ancestors) (ofMarkup source ancestors part))
  | markup {parent : NodeKind} {ancestors : List SyntaxNode} {part : SyntaxNode}
      (inRoot : part ∈ root.parts) (markup : part.isMarkup = true) :
      Written source root (some parent) (ofMarkup source ancestors part)
  | braces {parent : NodeKind} {ancestors : List SyntaxNode} {part : SyntaxNode}
      (inRoot : part ∈ root.parts) (braces : part.kind = .jsxExpression) :
      Written source root (some parent) (ofBraces source ancestors part)
  | expression {ancestors : List SyntaxNode} {part : SyntaxNode} (inRoot : part ∈ root.parts)
      (other : ¬ part.isMarkup = true) :
      Written source root (some .container)
        (node (.other part.expressionKind) part.span (roots source ancestors part) [])
  | text {parent : NodeKind} {span : Span} {raw : Text} :
      Written source root (some parent) (node (.text raw) span [] [])
  | empty {span : Span} : Written source root (some .container) (node .empty span [] [])

variable {source : Text} {root : SyntaxNode} {ancestors : List SyntaxNode} {outline : Outline}

/-! ## Members of what is read off -/

theorem mem_rootsIn_iff {nodes : List SyntaxNode} :
    outline ∈ rootsIn source ancestors nodes ↔
      ∃ part ∈ nodes, outline ∈ roots source ancestors part := by
  induction nodes with
  | nil => simp
  | cons first rest inductionHypothesis => simp [inductionHypothesis]

/-- A root stands for markup in the node where it was found. -/
theorem exists_of_mem_roots {ancestors : List SyntaxNode} {top : SyntaxNode}
    (member : outline ∈ roots source ancestors top) :
    ∃ above, ∃ part ∈ top.parts, part.isMarkup = true
      ∧ outline = under (contextOf source above) (ofMarkup source above part) := by
  by_cases markup : top.isMarkup = true
  · rw [roots_of_isMarkup markup, List.mem_singleton] at member
    exact ⟨ancestors, top, top.mem_parts_self, markup, member⟩
  · rw [roots_of_not_isMarkup markup, mem_rootsIn_iff] at member
    obtain ⟨child, isChild, inChild⟩ := member
    have inTop := mem_children_of_mem_namedChildren isChild
    have smaller := count_lt_of_mem inTop
    obtain ⟨above, part, below, isMarkup, outlineEq⟩ := exists_of_mem_roots inChild
    exact ⟨above, part, mem_parts_trans below (mem_parts_of_mem_children inTop), isMarkup,
      outlineEq⟩
termination_by top.count

theorem written_of_mem_roots {top : SyntaxNode} (inRoot : top ∈ root.parts)
    (member : outline ∈ roots source ancestors top) : Written source root none outline := by
  obtain ⟨above, part, below, markup, rfl⟩ := exists_of_mem_roots member
  exact .root (mem_parts_trans below inRoot) markup

theorem written_of_mem_rootsIn {nodes : List SyntaxNode}
    (inRoot : ∀ part ∈ nodes, part ∈ root.parts)
    (member : outline ∈ rootsIn source ancestors nodes) : Written source root none outline := by
  obtain ⟨part, isPart, inPart⟩ := mem_rootsIn_iff.1 member
  exact written_of_mem_roots (inRoot part isPart) inPart

theorem written_of_mem_ofText {parent : NodeKind} {start stop : Nat}
    (member : outline ∈ ofText source start stop) : Written source root (some parent) outline := by
  unfold ofText at member
  split at member
  · rw [List.mem_singleton.1 member]
    exact .text
  · cases member

/-- What stands between two tags is text or read off a node there. -/
theorem written_of_mem_childrenIn {parent : NodeKind} {start stop : Nat}
    {structural : List SyntaxNode}
    (inRoot : ∀ part ∈ structural, part ∈ root.parts ∧ part.isStructural = true)
    (member : outline ∈ childrenIn source ancestors start stop structural) :
    Written source root (some parent) outline := by
  induction structural generalizing start with
  | nil =>
    rw [childrenIn_nil] at member
    exact written_of_mem_ofText member
  | cons child rest inductionHypothesis =>
    rw [childrenIn_cons] at member
    rcases List.mem_append.1 member with inText | inRest
    · exact written_of_mem_ofText inText
    · rcases List.mem_cons.1 inRest with rfl | inRest
      · obtain ⟨inRoot, structural⟩ := inRoot child List.mem_cons_self
        unfold ofChild
        split
        · exact .braces inRoot (by simpa using ‹(child.kind == .jsxExpression) = true›)
        · exact .markup inRoot (isMarkup_of_isStructural structural ‹_›)
      · exact inductionHypothesis
          (fun part member => inRoot part (List.mem_cons_of_mem _ member)) inRest

/-! ## What is handed on -/

section Tagged

variable {opening : SyntaxNode} {tags : Tags} {span : Span} {aside children : List Outline}

theorem mem_aside_of_ofTags
    (member : outline ∈ (ofTags source opening tags span aside children).aside) :
    outline ∈ aside := by
  unfold ofTags at member
  split at member
  · exact member
  · exact absurd member List.not_mem_nil

@[simp] theorem children_ofTags :
    (ofTags source opening tags span aside children).children = children := by
  unfold ofTags
  split <;> rfl

@[simp] theorem tags?_ofTags :
    (ofTags source opening tags span aside children).kind.tags? = some tags := by
  unfold ofTags
  split
  · exact tags?_elementOf
  · rfl

@[simp] theorem span_ofTags : (ofTags source opening tags span aside children).span = span := by
  unfold ofTags
  split <;> rfl

end Tagged

theorem isContext_contextOf (ancestors : List SyntaxNode) :
    (contextOf source ancestors).1.isContext = true := by
  fun_induction contextOf source ancestors with
  | case1 => rfl
  | case2 _ _ _ inductionHypothesis => exact inductionHypothesis
  | case3 => rfl
  | case4 => rfl

theorem isTagged_of_isContext {kind : NodeKind} (isContext : kind.isContext = true) :
    kind.isTagged = false := by
  cases kind <;> first | rfl | cases isContext

/-- What markup holds is read off the nodes in it. -/
theorem written_in_ofMarkup {part : SyntaxNode} (lawful : root.Lawful source)
    (inRoot : part ∈ root.parts) (markup : part.isMarkup = true) (parent : NodeKind) :
    (∀ below ∈ (ofMarkup source ancestors part).aside, Written source root none below)
      ∧ ∀ child ∈ (ofMarkup source ancestors part).children,
        Written source root (some parent) child := by
  rcases ofMarkup_cases ancestors (lawful.part inRoot) markup with
    ⟨-, outlineEq⟩ | ⟨opening, closing, content, pair, outlineEq⟩
  · rw [outlineEq]
    refine ⟨fun below member => written_of_mem_rootsIn (fun given isGiven => ?_) member,
      fun child member => absurd member List.not_mem_nil⟩
    exact mem_parts_of_child (mem_children_of_mem_attributes isGiven) inRoot
  · rw [outlineEq]
    have inTag := mem_parts_of_child pair.mem_opening inRoot
    refine ⟨fun below member => written_of_mem_rootsIn (fun given isGiven => ?_)
      (mem_aside_of_ofTags member), fun child member => ?_⟩
    · exact mem_parts_of_child (mem_children_of_mem_attributes isGiven) inTag
    · rw [children_ofTags] at member
      refine written_of_mem_childrenIn (fun part isPart => ?_) member
      obtain ⟨isContent, kept⟩ := List.mem_filter.1 isPart
      exact ⟨mem_parts_of_child (pair.mem_content isContent) inRoot,
        (Bool.and_eq_true _ _ ▸ kept).2⟩

theorem written_in_ofBraces {part : SyntaxNode} (inRoot : part ∈ root.parts) :
    (ofBraces source ancestors part).aside = []
      ∧ ∀ child ∈ (ofBraces source ancestors part).children,
        Written source root (some .container) child := by
  cases found : part.expression? with
  | none =>
    rw [ofBraces_of_none found]
    refine ⟨rfl, fun child member => ?_⟩
    rw [List.mem_singleton.1 member]
    exact .empty
  | some expression =>
    rw [ofBraces_of_some found]
    refine ⟨rfl, fun child member => ?_⟩
    have inExpression := mem_parts_trans (unparenthesize_mem_parts (part :: ancestors) expression)
      (mem_parts_of_child (mem_of_expression? found) inRoot)
    rw [List.mem_singleton.1 member, ofExpression]
    split
    · exact .markup inExpression ‹_›
    · exact .expression inExpression ‹_›

theorem kind_ofBraces {part : SyntaxNode} : (ofBraces source ancestors part).kind = .container := by
  cases found : part.expression? with
  | none => rw [ofBraces_of_none found]; rfl
  | some expression => rw [ofBraces_of_some found]; rfl

/-- What is read off as markup is neither a pair of braces nor nothing. -/
theorem kind_ofMarkup (ancestors : List SyntaxNode) (node : SyntaxNode) :
    (ofMarkup source ancestors node).kind.isTagged = true
      ∨ ∃ construct, (ofMarkup source ancestors node).kind = .other construct := by
  by_cases single : node.kind == .jsxSelfClosing
  · rw [ofMarkup_of_selfClosing single]
    exact Or.inl (NodeKind.isTagged_of_tags? tags?_elementOf)
  · cases opens : node.openingTag? with
    | none =>
      rw [ofMarkup_of_missing single fun _ _ opens' => by rw [opens] at opens'; cases opens']
      exact Or.inr ⟨_, rfl⟩
    | some opening =>
      cases closes : node.closingTag? with
      | none =>
        rw [ofMarkup_of_missing single fun _ _ _ closes' => by
          rw [closes] at closes'
          cases closes']
        exact Or.inr ⟨_, rfl⟩
      | some closing =>
        rw [ofMarkup_of_tags single opens closes]
        exact Or.inl (NodeKind.isTagged_of_tags? tags?_ofTags)

theorem text?_ofChild (above : List SyntaxNode) (child : SyntaxNode) :
    (ofChild source above child).kind.text? = none := by
  unfold ofChild
  split
  · rw [kind_ofBraces]
    rfl
  · rcases @kind_ofMarkup source above child with tagged | ⟨construct, kindEq⟩
    · exact Option.isNone_iff_eq_none.1 (text?_of_isTagged tagged)
    · rw [kindEq]
      rfl

/-- What an outline is read off hands on to what it holds. -/
theorem handedOn_written (lawful : root.Lawful source) : HandedOn (Written source root) := by
  constructor
  · intro parent outline written
    cases written with
    | root => exact fun _ member => absurd member List.not_mem_nil
    | markup inRoot markup => exact (written_in_ofMarkup lawful inRoot markup .container).1
    | braces inRoot =>
      rw [(written_in_ofBraces inRoot).1]
      exact fun _ member => absurd member List.not_mem_nil
    | expression inRoot => exact fun below member => written_of_mem_roots inRoot member
    | text => exact fun _ member => absurd member List.not_mem_nil
    | empty => exact fun _ member => absurd member List.not_mem_nil
  · intro parent outline written
    cases written with
    | root inRoot markup =>
      intro child member
      rw [List.mem_singleton.1 member]
      exact .markup inRoot markup
    | markup inRoot markup => exact (written_in_ofMarkup lawful inRoot markup _).2
    | braces inRoot =>
      rw [kind_ofBraces]
      exact (written_in_ofBraces inRoot).2
    | expression => exact fun _ member => absurd member List.not_mem_nil
    | text => exact fun _ member => absurd member List.not_mem_nil
    | empty => exact fun _ member => absurd member List.not_mem_nil

/-- The markup of a source is written in it. -/
theorem written_roots (lawful : root.Lawful source) :
    ∀ entry ∈ entriesAll none (roots source [] root),
      Written source root entry.parent entry.outline :=
  (handedOn_written lawful).entriesAll none (roots source [] root)
    fun _ member => written_of_mem_roots root.mem_parts_self member

/-- An element or fragment is read off markup. -/
theorem Written.exists_markup {parent : Option NodeKind}
    (written : Written source root parent outline) (tagged : outline.kind.isTagged = true) :
    ∃ ancestors, ∃ part ∈ root.parts, part.isMarkup = true
      ∧ outline = ofMarkup source ancestors part := by
  cases written with
  | markup inRoot markup => exact ⟨_, _, inRoot, markup, rfl⟩
  | @root ancestors =>
    have untagged := isTagged_of_isContext (@isContext_contextOf source ancestors)
    exact absurd tagged (Bool.eq_false_iff.1 untagged)
  | braces inRoot =>
    rw [kind_ofBraces] at tagged
    cases tagged
  | expression => cases tagged
  | text => cases tagged
  | empty => cases tagged

/-- Braces below another outline are read off braces. -/
theorem Written.exists_braces {parent : NodeKind} (lawful : root.Lawful source)
    (written : Written source root (some parent) outline)
    (isContainer : outline.kind = .container) :
    ∃ above, ∃ part ∈ root.parts, part.kind = .jsxExpression
      ∧ outline = ofBraces source above part := by
  cases written with
  | braces inRoot braces => exact ⟨_, _, inRoot, braces, rfl⟩
  | @markup _ ancestors part inRoot markup =>
    have own := @taggedAt_ofMarkup source ancestors part (lawful.part inRoot) markup
    have tagged := own.tagged
    rw [isContainer] at tagged
    cases tagged
  | expression => cases isContainer
  | text => cases isContainer
  | empty => cases isContainer

/-- An element is read off its opening tag, or off the tag that closes itself. -/
theorem Written.exists_tag {parent : Option NodeKind} {element : Element}
    (lawful : root.Lawful source) (written : Written source root parent outline)
    (isElement : outline.kind = .element element) :
    ∃ tag ∈ root.parts, (tag.kind = .jsxOpening ∨ tag.kind = .jsxSelfClosing)
      ∧ tag.span = element.tags.opening
      ∧ lowerElement source tag element.tags = .ok (.element element) := by
  obtain ⟨ancestors, part, inRoot, markup, rfl⟩ := written.exists_markup (by rw [isElement]; rfl)
  have lowered {tag : SyntaxNode} {tags : Tags} (inRoot : tag ∈ root.parts)
      (kindEq : elementOf source tag tags = .element element) :
      tags.opening = element.tags.opening
        ∧ lowerElement source tag element.tags = .ok (.element element) := by
    have sameTags := @tags?_elementOf source tag tags
    rw [kindEq] at sameTags
    obtain rfl : element.tags = tags := Option.some.inj sameTags
    exact ⟨rfl, by rw [lowerElement_eq (lawful.part inRoot).stands, kindEq]⟩
  rcases ofMarkup_cases ancestors (lawful.part inRoot) markup with
    ⟨single, outlineEq⟩ | ⟨opening, closing, content, pair, outlineEq⟩
  · rw [outlineEq] at isElement
    exact ⟨part, inRoot, .inr single, lowered inRoot isElement⟩
  · have inTag := mem_parts_of_child pair.mem_opening inRoot
    rw [outlineEq, ofTags] at isElement
    split at isElement
    · exact ⟨opening, inTag, .inl pair.kindOpening, lowered inTag isElement⟩
    · cases isElement

end Outline

section Parser

variable [SyntaxParser] [LawfulSyntaxParser]

/-- The tree of an accepted source records markup that is written in its concrete tree. -/
theorem Tree.exists_written {dialect : Dialect} {source : Text} {tree : Tree}
    (accepted : Tree.ofSource dialect source = .ok tree) :
    ∃ root all, root.Lawful source ∧ tree.Records all
      ∧ ∀ entry ∈ all, Outline.Written source root entry.parent entry.outline := by
  obtain ⟨root, parsed, sound, rfl⟩ := ofSource_eq_ok_iff.1 accepted
  have lawful := LawfulSyntaxParser.lawful parsed sound
  exact ⟨root, _, lawful, records_ofSyntax lawful, Outline.written_roots lawful⟩

end Parser

end FragmentLint
