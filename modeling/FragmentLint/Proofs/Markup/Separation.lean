import FragmentLint.Proofs.Markup.Comments
import FragmentLint.Proofs.Markup.Soundness

/-!
Contract: comments share no byte with the texts between tags, nor with the literals in them.

Of all the comments of a source, those that are not in a node stand outside of it
(`disjoint_or_mem_comments`). Between two tags they stand in the elements and braces there, which
the texts leave over (`disjoint_of_mem_childrenIn`). In a literal there are none.

Does not own: what comments are.
-/

namespace FragmentLint

namespace Span

/-- Whether two spans share no byte. -/
def Disjoint (left right : Span) : Prop := left.stop ≤ right.start ∨ right.stop ≤ left.start

theorem Disjoint.mono {span inner outer : Span} (disjoint : span.Disjoint outer)
    (within : inner.Within outer) : span.Disjoint inner := by
  rcases disjoint with before | behind
  · exact .inl (Nat.le_trans before within.1)
  · exact .inr (Nat.le_trans within.2 behind)

theorem Disjoint.mono_left {span inner outer : Span} (disjoint : outer.Disjoint span)
    (within : inner.Within outer) : inner.Disjoint span := by
  rcases disjoint with before | behind
  · exact .inl (Nat.le_trans within.2 before)
  · exact .inr (Nat.le_trans behind within.1)

/-- Spans in order are disjoint, each of them in front of all that follow. -/
theorem InOrder.pairwise {spans : List Span} {start stop : Nat} (inOrder : InOrder start spans stop) :
    spans.Pairwise fun first second => first.stop ≤ second.start := by
  induction spans generalizing start with
  | nil => exact .nil
  | cons first rest inductionHypothesis =>
    obtain ⟨-, -, others⟩ := inOrder
    exact List.pairwise_cons.2
      ⟨fun span member => (others.within span member).1, inductionHypothesis others⟩

end Span

namespace SyntaxNode

variable {source : Text} {root node comment : SyntaxNode}

theorem mem_commentsOfAll_iff {nodes : List SyntaxNode} :
    comment ∈ commentsOfAll nodes ↔ ∃ node ∈ nodes, comment ∈ node.comments := by
  induction nodes with
  | nil => simp [commentsOfAll]
  | cons first rest inductionHypothesis => simp [commentsOfAll, inductionHypothesis]

/-- Of two children of a node, one stands behind the other or they are the same. -/
theorem disjoint_or_eq_of_mem_children (stands : root.StandsIn source) {left right : SyntaxNode}
    (isChild : left ∈ root.children) (isChildToo : right ∈ root.children) :
    left.span.Disjoint right.span ∨ left = right := by
  have inOrder := stands.childrenInOrder.pairwise
  rw [List.pairwise_map] at inOrder
  let apart (first second : SyntaxNode) : Prop := first.span.Disjoint second.span ∨ first = second
  have inFront : root.children.Pairwise apart := inOrder.imp fun behind => .inl (.inl behind)
  have behind : root.children.Pairwise (flip apart) := inOrder.imp fun behind => .inl (.inr behind)
  exact List.Pairwise.forall_of_forall_of_flip (fun child _ => .inr rfl) inFront behind isChild
    isChildToo

/-- Every comment of a tree is outside of a node of it, or in it. -/
theorem disjoint_or_mem_comments {root node comment : SyntaxNode} (stands : root.StandsIn source)
    (tokens : ∀ part ∈ root.parts, part.kind = .comment → part.children = [])
    (inRoot : node ∈ root.parts) (collected : comment ∈ root.comments) :
    comment.span.Disjoint node.span ∨ comment ∈ node.comments := by
  rcases mem_parts_iff.1 inRoot with rfl | ⟨child, isChild, inChild⟩
  · exact .inr collected
  · have other : ¬ root.kind == .comment := by
      intro isComment
      rw [tokens root root.mem_parts_self (eq_of_beq isComment)] at isChild
      cases isChild
    rw [comments_of_other other, mem_commentsOfAll_iff] at collected
    obtain ⟨holder, isHolder, inHolder⟩ := collected
    rcases disjoint_or_eq_of_mem_children stands isHolder isChild with disjoint | rfl
    · have inPart := (stands.child isHolder).within (mem_comments holder comment inHolder).1
      exact .inl ((disjoint.mono ((stands.child isChild).within inChild)).mono_left inPart)
    · have smaller := count_lt_of_mem isHolder
      exact disjoint_or_mem_comments (stands.child isHolder)
        (fun part below => tokens part (mem_parts_trans below (mem_parts_of_mem_children isHolder)))
        inChild inHolder
termination_by root.count

/-- The comments of an element are in its tags, or in its elements and braces. -/
theorem mem_comments_of_pair {element opening closing : SyntaxNode} {content : List SyntaxNode}
    (pair : element.Pair opening closing content)
    (texts : ∀ child ∈ content,
      ¬ (child.isNamed && child.isStructural) = true → child.comments = [])
    (other : ¬ element.kind == .comment) (collected : comment ∈ element.comments) :
    comment ∈ opening.comments ∨ comment ∈ closing.comments
      ∨ ∃ child ∈ Outline.between content, comment ∈ child.comments := by
  rw [comments_of_other other, mem_commentsOfAll_iff] at collected
  obtain ⟨child, isChild, inChild⟩ := collected
  rw [pair.children] at isChild
  rcases List.mem_cons.1 isChild with rfl | behind
  · exact .inl inChild
  · rcases List.mem_append.1 behind with inContent | isClosing
    · by_cases structural : (child.isNamed && child.isStructural) = true
      · exact .inr (.inr ⟨child, List.mem_filter.2 ⟨inContent, structural⟩, inChild⟩)
      · rw [texts child inContent structural] at inChild
        cases inChild
    · rw [List.mem_singleton.1 isClosing] at inChild
      exact .inr (.inl inChild)

end SyntaxNode

namespace Outline

open SyntaxNode

variable {source : Text} {ancestors : List SyntaxNode}

theorem span_of_mem_ofText {start stop : Nat} {child : Outline}
    (member : child ∈ ofText source start stop) : child.span = ⟨start, stop⟩ := by
  unfold ofText at member
  split at member
  · rw [List.mem_singleton.1 member]
    rfl
  · cases member

/-- What stands in front of two tags, behind them, or in an element or braces between them shares
nothing with the texts there. -/
theorem disjoint_of_mem_childrenIn {start stop : Nat} {structural : List SyntaxNode}
    (lawful : ∀ child ∈ structural, child.Lawful source ∧ child.isStructural = true)
    (inOrder : Span.InOrder start (structural.map (·.span)) stop) {span : Span}
    (place : span.stop ≤ start ∨ stop ≤ span.start
      ∨ ∃ child ∈ structural, span.Within child.span) {text : Outline}
    (member : text ∈ childrenIn source ancestors start stop structural)
    (isText : text.kind.text?.isSome = true) : span.Disjoint text.span := by
  induction structural generalizing start with
  | nil =>
    rw [childrenIn_nil] at member
    rw [span_of_mem_ofText member]
    rcases place with inFront | behind | ⟨child, isChild, -⟩
    · exact .inl inFront
    · exact .inr behind
    · cases isChild
  | cons child rest inductionHypothesis =>
    obtain ⟨lawfulChild, structural⟩ := lawful child List.mem_cons_self
    have lawfulRest := fun part member => lawful part (List.mem_cons_of_mem _ member)
    obtain ⟨begins, ordered, inOrderRest⟩ := inOrder
    have last := inOrderRest.start_le_stop
    have fromChild : Span.InOrder child.span.start ((child :: rest).map (·.span)) stop :=
      ⟨Nat.le_refl _, ordered, inOrderRest⟩
    rw [childrenIn_cons] at member
    rcases List.mem_append.1 member with inText | behindText
    · rw [span_of_mem_ofText inText]
      rcases place with inFront | behind | ⟨other, isOther, within⟩
      · exact .inl inFront
      · exact .inr (Nat.le_trans ordered (Nat.le_trans last behind))
      · have notBefore := (fromChild.within _ (List.mem_map_of_mem isOther)).1
        exact .inr (Nat.le_trans notBefore within.1)
    · rcases List.mem_cons.1 behindText with rfl | inRest
      · rw [text?_ofChild] at isText
        cases isText
      · refine inductionHypothesis lawfulRest inOrderRest ?_ inRest
        rcases place with inFront | behind | ⟨other, isOther, within⟩
        · exact .inl (Nat.le_trans inFront (Nat.le_trans begins ordered))
        · exact .inr (.inl behind)
        · rcases List.mem_cons.1 isOther with rfl | inRest
          · exact .inl within.2
          · exact .inr (.inr ⟨other, inRest, within⟩)

/-- The texts among the children of markup are clear of all comments. -/
theorem disjoint_of_text {root part comment : SyntaxNode} (lawful : root.Lawful source)
    (keeps : root.KeepsComments source) (inRoot : part ∈ root.parts)
    (markup : part.isMarkup = true) {text : Outline}
    (member : text ∈ (ofMarkup source ancestors part).children)
    (isText : text.kind.text?.isSome = true) (collected : comment ∈ root.comments) :
    comment.span.Disjoint text.span := by
  have own := lawful.part inRoot
  rcases kind_of_isMarkup markup with single | ⟨-, isElement⟩
  · rw [ofMarkup_of_selfClosing (by simpa using single)] at member
    cases member
  rcases ofMarkup_cases ancestors own markup with
    ⟨single, -⟩ | ⟨opening, closing, content, pair, outlineEq⟩
  · rw [isElement] at single
    cases single
  rcases disjoint_or_mem_comments lawful.stands (fun node below isComment =>
    (keeps.tokens node below isComment).1) inRoot collected with disjoint | inPart
  · have whole := @taggedAt_ofMarkup source ancestors part own markup
    have within := whole.placed.within text member
    rw [whole.span] at within
    exact disjoint.mono within
  · have structural : ∀ child ∈ between content,
        child.Lawful source ∧ child.isStructural = true := by
      intro child isChild
      obtain ⟨inContent, kept⟩ := List.mem_filter.1 isChild
      exact ⟨own.child (pair.mem_content inContent), (Bool.and_eq_true _ _ ▸ kept).2⟩
    have inOrder : Span.InOrder opening.span.stop ((between content).map (·.span))
        closing.span.start :=
      (pair.inOrder own.stands).sublist (List.filter_sublist.map _)
    have within {node : SyntaxNode} (lawful : node.Lawful source)
        (inNode : comment ∈ node.comments) : comment.span.Within node.span :=
      lawful.stands.within (mem_comments node comment inNode).1
    rw [outlineEq, children_ofTags] at member
    refine disjoint_of_mem_childrenIn structural inOrder ?_ member isText
    rcases mem_comments_of_pair pair (keeps.texts part inRoot isElement _ _ _ pair.children)
      (by rw [isElement]; decide) inPart with inOpening | inClosing | ⟨child, isChild, inChild⟩
    · exact .inl (within (own.child pair.mem_opening) inOpening).2
    · exact .inr (.inl (within (own.child pair.mem_closing) inClosing).1)
    · exact .inr (.inr ⟨child, isChild, within (structural child isChild).1 inChild⟩)

end Outline

namespace Attribute

open SyntaxNode Lowering

variable {source : Text} {root node : SyntaxNode} {given : Attribute} {raw : Text}

/-- Whether a span is where a literal stands that an attribute is set to: it is that of the value in
the node of the attribute. -/
structure LiteralAt (source : Text) (root : SyntaxNode) (given : Attribute) (raw : Text)
    (place : Span) : Prop where
  delimits : place.Delimits source raw
  isValue : ∃ part ∈ root.parts, part.kind = .jsxAttribute ∧ part.span = given.span
    ∧ ∃ value ∈ part.literal?, value.span = place

theorem lowerValue_eq_literal_iff :
    lowerValue source node = .ok (.literal raw) ↔
      node.kind ≠ .jsxExpression ∧ node.isMarkup = false ∧ slice source node.span = .ok raw := by
  unfold lowerValue
  split
  · simp_all
  · split
    · simp_all
    · cases slice source node.span <;> simp_all [bind, Except.bind, pure, Except.pure]

/-- A literal is what stands at the value of an attribute. -/
theorem exists_literal (lowered : lowerAttribute source node = .ok given)
    (isLiteral : given.value = some (.literal raw)) :
    node.kind = .jsxAttribute ∧ ∃ value ∈ node.literal?, value.span.Delimits source raw := by
  unfold lowerAttribute at lowered
  split at lowered
  · cases lowered
    cases isLiteral
  next isAttribute =>
    obtain ⟨key, -, lowered⟩ := bind_eq_ok_iff.1 lowered
    obtain ⟨value, valueEq, lowered⟩ := bind_eq_ok_iff.1 lowered
    cases lowered
    obtain rfl : value = some (.literal raw) := isLiteral
    refine ⟨by simpa using isAttribute, ?_⟩
    unfold literal?
    cases found : (node.namedChildren.filter (·.kind != .comment))[1]? with
    | none =>
      rw [found] at valueEq
      cases valueEq
    | some part =>
      rw [found, Option.mapM_some] at valueEq
      cases ownEq : lowerValue source part with
      | error reason =>
        rw [ownEq] at valueEq
        cases valueEq
      | ok own =>
        rw [ownEq] at valueEq
        cases valueEq
        obtain ⟨noBraces, noMarkup, sliced⟩ := lowerValue_eq_literal_iff.1 ownEq
        refine ⟨part, ?_, slice_eq_ok_iff.1 sliced⟩
        rw [Option.filter_some, if_pos (by simp [noBraces, noMarkup])]
        rfl

/-- A literal that an attribute of an element is set to is clear of all comments. -/
theorem exists_literalAt {parent : Option NodeKind} {outline : Outline} {element : Element}
    (lawful : root.Lawful source) (keeps : root.KeepsComments source)
    (written : Outline.Written source root parent outline)
    (isElement : outline.kind = .element element) (member : given ∈ element.attributes)
    (isLiteral : given.value = some (.literal raw)) :
    ∃ place, LiteralAt source root given raw place
      ∧ ∀ comment ∈ root.comments, comment.span.Disjoint place := by
  obtain ⟨tag, inRoot, -, -, lowered⟩ := written.exists_tag lawful isElement
  obtain ⟨name, attributes, same, -, lowerEach⟩ := lowerElement_eq_ok_iff.1 lowered
  obtain rfl : element.attributes = attributes :=
    congrArg Element.attributes (NodeKind.element.inj same)
  obtain ⟨part, isPart, partLowered⟩ :=
    exists_item_of_mapM (mapM_eq_ok_iff.2 lowerEach) given member
  have partInRoot := mem_parts_of_child (mem_children_of_mem_attributes isPart) inRoot
  obtain ⟨isAttribute, value, isValue, delimits⟩ := exists_literal partLowered isLiteral
  refine ⟨value.span, ⟨delimits, part, partInRoot, isAttribute,
    (span_lowerAttribute partLowered).symm, value, isValue, rfl⟩, ?_⟩
  intro comment collected
  have valueInPart : value ∈ part.children := by
    obtain ⟨found, -⟩ := Option.filter_eq_some_iff.1 isValue
    exact mem_children_of_mem_namedChildren (List.mem_filter.1 (List.mem_of_getElem? found)).1
  rcases disjoint_or_mem_comments lawful.stands (fun node below isComment =>
    (keeps.tokens node below isComment).1) (mem_parts_of_child valueInPart partInRoot) collected
    with disjoint | inValue
  · exact disjoint
  · rw [keeps.literals part partInRoot isAttribute value isValue] at inValue
    cases inValue

end Attribute

end FragmentLint
