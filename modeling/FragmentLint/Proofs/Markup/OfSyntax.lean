import FragmentLint.Proofs.Markup.Lowered
import FragmentLint.Proofs.Markup.Placement

/-!
Contract: the markup that is read off a lawful concrete tree is placed in its source.

The proof follows the five functions that read markup off: roots, roots in several nodes, an element
or a fragment, what stands between two tags, and a pair of braces. Each of them is given nodes that
stand in the source, and answers outlines that stand there too. Main statement: `rooted_roots`.
-/

namespace FragmentLint

namespace SyntaxNode

variable {source : Text} {node : SyntaxNode}

theorem structural_of_mem_structuralIn {element child : SyntaxNode} {inner : Span}
    (member : child ∈ element.structuralIn inner) : child.isStructural = true := by
  have kept := (List.mem_filter.1 member).2
  simp only [Bool.and_eq_true] at kept
  exact kept.2

theorem kind_of_isMarkup (markup : node.isMarkup = true) :
    node.kind = .jsxSelfClosing ∨ ¬ node.kind == .jsxSelfClosing ∧ node.kind = .jsxElement := by
  unfold isMarkup at markup
  by_cases single : node.kind = .jsxSelfClosing
  · exact Or.inl single
  · simp_all

theorem isMarkup_of_isStructural (structural : node.isStructural = true)
    (other : ¬ node.kind == .jsxExpression) : node.isMarkup = true := by
  unfold isStructural at structural
  simpa [other] using structural

/-! ## The tags of an element -/

/-- The tags of an element, and what stands between them. -/
structure Pair (element opening closing : SyntaxNode) (content : List SyntaxNode) : Prop where
  children : element.children = opening :: (content ++ [closing])
  opens : element.openingTag? = some opening
  closes : element.closingTag? = some closing
  kindOpening : opening.kind = .jsxOpening
  kindClosing : closing.kind = .jsxClosing
  first : opening.span.start = element.span.start
  last : closing.span.stop = element.span.stop

theorem HasTags.exists_pair {element : SyntaxNode} (hasTags : element.HasTags) :
    ∃ opening closing content, element.Pair opening closing content := by
  obtain ⟨opening, content, closing, children, kindOpening, openField, first, kindClosing,
    closeField, last, others⟩ := hasTags
  refine ⟨opening, closing, content, children, ?_, ?_, kindOpening, kindClosing, first, last⟩
  · rw [openingTag?, childByField?, children]
    simp [openField]
  · have inside : (content.find? fun child => child.field == some .closeTag) = none := by
      rw [List.find?_eq_none]
      intro child member isClosing
      exact others child member (by simpa using isClosing)
    rw [closingTag?, childByField?, children]
    simp [openField, closeField, inside]

namespace Pair

variable {element opening closing : SyntaxNode} {content : List SyntaxNode}

theorem mem_opening (pair : element.Pair opening closing content) : opening ∈ element.children :=
  mem_of_openingTag? pair.opens

theorem mem_closing (pair : element.Pair opening closing content) : closing ∈ element.children :=
  mem_of_closingTag? pair.closes

theorem mem_content (pair : element.Pair opening closing content) {child : SyntaxNode}
    (member : child ∈ content) : child ∈ element.children := by
  rw [pair.children]
  exact List.mem_cons_of_mem _ (List.mem_append_left _ member)

/-- What an element holds stands between its tags. -/
theorem inOrder (pair : element.Pair opening closing content) (stands : element.StandsIn source) :
    Span.InOrder opening.span.stop (content.map (·.span)) closing.span.start := by
  have all := stands.childrenInOrder
  rw [pair.children, List.map_cons, List.map_append, List.map_singleton] at all
  exact Span.InOrder.front all.2.2

/-- The children of an element that the lowering takes up. -/
theorem structuralIn_eq (pair : element.Pair opening closing content)
    (stands : element.StandsIn source) :
    element.structuralIn ⟨opening.span.stop, closing.span.start⟩
      = content.filter fun child => child.isNamed && child.isStructural := by
  have outer (tag : SyntaxNode) (isTag : tag.kind = .jsxOpening ∨ tag.kind = .jsxClosing) :
      tag.isStructural = false := by
    unfold isStructural isMarkup
    rcases isTag with isTag | isTag <;> rw [isTag] <;> rfl
  have within := (pair.inOrder stands).within
  rw [structuralIn, namedChildren, List.filter_filter, pair.children]
  simp only [List.filter_cons, List.filter_append, List.filter_nil, outer opening
    (Or.inl pair.kindOpening), outer closing (Or.inr pair.kindClosing), Bool.and_false,
    Bool.false_and, Bool.false_eq_true, if_false, List.append_nil]
  apply List.filter_congr
  intro child member
  obtain ⟨begins, ends⟩ := within child.span (List.mem_map_of_mem member)
  simp [begins, ends, Bool.and_comm]

theorem structural_inOrder (pair : element.Pair opening closing content)
    (stands : element.StandsIn source) :
    Span.InOrder opening.span.stop
      ((element.structuralIn ⟨opening.span.stop, closing.span.start⟩).map (·.span))
      closing.span.start := by
  rw [pair.structuralIn_eq stands]
  exact (pair.inOrder stands).sublist (List.filter_sublist.map _)

/-- The tags of an element are written around what it holds. -/
theorem delimit (pair : element.Pair opening closing content) (lawful : element.Lawful source) :
    Tags.Delimit source element.span ⟨opening.span, some closing.span⟩ := by
  obtain ⟨⟨opens, writtenOpening⟩, -⟩ := (lawful.child pair.mem_opening).isComplete.opening
    pair.kindOpening
  obtain ⟨⟨closes, writtenClosing⟩, -⟩ := (lawful.child pair.mem_closing).isComplete.closing
    pair.kindClosing
  obtain ⟨inner, between⟩ := Text.exists_slice?_of_le (Text.isBoundary_stop writtenOpening)
    (Text.isBoundary_start writtenClosing) (pair.inOrder lawful.stands).start_le_stop
  have whole := Text.slice?_trans writtenOpening (Text.slice?_trans between writtenClosing)
  have innerStart := Text.stop_of_slice? writtenOpening
  have innerStop := Text.stop_of_slice? between
  rw [pair.first, pair.last] at whole
  simp only [List.cons_append, List.nil_append, List.append_assoc] at whole
  have delimits : element.span.Delimits source
      ('<' :: (opens ++ '>' :: (inner ++ '<' :: '/' :: (closes ++ ['>'])))) := whole
  have less : Char.utf8Size '<' = 1 := by decide
  have greater : Char.utf8Size '>' = 1 := by decide
  have innerStartEq : opening.span.stop = element.span.start + Text.bytes opens + 2 := by
    rw [← pair.first]
    simp only [Text.bytes_append, Text.bytes_cons, Text.bytes_nil, less, greater] at innerStart
    omega
  have framed := Tags.Delimit.pair delimits innerStartEq innerStop
  rw [← pair.first, ← pair.last] at framed
  exact framed

end Pair

/-- Markup that is not one tag alone stands between two tags. -/
theorem Lawful.exists_pair (lawful : node.Lawful source) (markup : node.isMarkup = true)
    (paired : ¬ node.kind == .jsxSelfClosing) :
    ∃ opening closing content, node.Pair opening closing content := by
  have isElement := ((kind_of_isMarkup markup).resolve_left
    fun single => paired (by simpa using single)).2
  exact (lawful.isComplete.element isElement).exists_pair

/-- The tags that are found in markup are those that it stands between. -/
theorem Lawful.exists_content (lawful : node.Lawful source) (markup : node.isMarkup = true)
    (paired : ¬ node.kind == .jsxSelfClosing) {opening closing : SyntaxNode}
    (opens : node.openingTag? = some opening) (closes : node.closingTag? = some closing) :
    ∃ content, node.Pair opening closing content := by
  obtain ⟨opening', closing', content, pair⟩ := lawful.exists_pair markup paired
  obtain rfl := Option.some.inj (opens.symm.trans pair.opens)
  obtain rfl := Option.some.inj (closes.symm.trans pair.closes)
  exact ⟨content, pair⟩

end SyntaxNode

namespace Outline

open SyntaxNode Lowering

variable {source : Text} {ancestors : List SyntaxNode} {node : SyntaxNode}

/-! ## Roots -/

theorem Encloses.own (ancestors : List SyntaxNode) (lawful : node.Lawful source)
    (notParentheses : ¬ node.kind == .parenthesized) :
    Encloses source (contextOf source (node :: ancestors)) node.span.start node.span.stop := by
  rw [contextOf, if_neg notParentheses]
  split
  · rename_i braces
    obtain ⟨⟨inside, written⟩, -⟩ := lawful.isComplete.braces (by simpa using braces)
    exact ⟨rfl, ⟨_, written, fun _ => ⟨inside, rfl⟩⟩, Nat.le_refl _, Nat.le_refl _⟩
  · obtain ⟨piece, delimits⟩ := lawful.stands.own
    exact ⟨rfl, ⟨piece, delimits, fun isContainer => by cases isContainer⟩, Nat.le_refl _,
      Nat.le_refl _⟩

/-- What encloses a node encloses what it holds, unless the node does so itself. -/
theorem Encloses.below (lawful : node.Lawful source)
    (encloses : Encloses source (contextOf source ancestors) node.span.start node.span.stop)
    {child : SyntaxNode} (member : child ∈ node.children) :
    Encloses source (contextOf source (node :: ancestors)) child.span.start child.span.stop := by
  obtain ⟨begins, ends⟩ := lawful.within member
  by_cases parentheses : node.kind == .parenthesized
  · rw [contextOf, if_pos parentheses]
    exact encloses.mono begins ends
  · exact (Encloses.own _ lawful parentheses).mono begins ends

theorem Encloses.unparenthesize (lawful : node.Lawful source)
    (encloses : Encloses source (contextOf source ancestors) node.span.start node.span.stop) :
    Encloses source (contextOf source (unparenthesize ancestors node).1)
      (unparenthesize ancestors node).2.span.start
      (unparenthesize ancestors node).2.span.stop := by
  fun_induction SyntaxNode.unparenthesize ancestors node with
  | case1 ancestors node parentheses inner found inductionHypothesis =>
    have member := mem_of_expression? found
    exact inductionHypothesis (lawful.child member) (Encloses.below lawful encloses member)
  | case2 => exact encloses
  | case3 => exact encloses

/-! ## Elements and fragments -/

/-- The children of an element that stand between its tags. -/
def between (content : List SyntaxNode) : List SyntaxNode :=
  content.filter fun child => child.isNamed && child.isStructural

/-- Markup is a tag that closes itself, or it has two tags with its children between them. -/
theorem ofMarkup_cases (ancestors : List SyntaxNode) (lawful : node.Lawful source)
    (markup : node.isMarkup = true) :
    (node.kind = .jsxSelfClosing
      ∧ ofMarkup source ancestors node
        = .node (elementOf source node ⟨node.span, none⟩) node.span
          (rootsIn source (node :: ancestors) node.attributes) [])
    ∨ ∃ opening closing content, node.Pair opening closing content
      ∧ ofMarkup source ancestors node
        = ofTags source opening ⟨opening.span, some closing.span⟩ node.span
          (rootsIn source (opening :: node :: ancestors) opening.attributes)
          (childrenIn source (node :: ancestors) opening.span.stop closing.span.start
            (between content)) := by
  rcases kind_of_isMarkup markup with single | ⟨paired, isElement⟩
  · exact Or.inl ⟨single, ofMarkup_of_selfClosing (by simpa using single)⟩
  · obtain ⟨opening, closing, content, pair⟩ := (lawful.isComplete.element isElement).exists_pair
    refine Or.inr ⟨opening, closing, content, pair, ?_⟩
    rw [ofMarkup_of_tags paired pair.opens pair.closes, pair.structuralIn_eq lawful.stands]
    rfl

/-- Whether an outline is an element or a fragment that stands at a span. -/
structure TaggedAt (source : Text) (span : Span) (outline : Outline) : Prop where
  tagged : outline.kind.isTagged = true
  span : outline.span = span
  placed : Placed source outline

theorem taggedAt_ofSelfClosing (lawful : node.Lawful source) (single : node.kind = .jsxSelfClosing)
    {aside : List Outline} (rooted : Rooted source aside) :
    TaggedAt source node.span
      (.node (elementOf source node ⟨node.span, none⟩) node.span aside []) := by
  obtain ⟨⟨inside, written⟩, -⟩ := lawful.isComplete.selfClosing single
  refine ⟨NodeKind.isTagged_of_tags? tags?_elementOf, rfl, ?_⟩
  exact .tagged tags?_elementOf (.single written) (fun root member => (rooted root member).1)
    (fun root member => (rooted root member).2) rfl .nil (by simp) (by simp)

theorem taggedAt_ofTags {opening closing : SyntaxNode} {content : List SyntaxNode}
    (pair : node.Pair opening closing content) (lawful : node.Lawful source)
    {aside children : List Outline} (rooted : Rooted source aside)
    (fills : Fills source opening.span.stop children closing.span.start) :
    TaggedAt source node.span
      (ofTags source opening ⟨opening.span, some closing.span⟩ node.span aside children) := by
  have delimit := pair.delimit lawful
  have isContent := fun child member => (fills.placed child member).1
  have childrenPlaced := fun child member => (fills.placed child member).2
  unfold ofTags
  split
  · exact ⟨NodeKind.isTagged_of_tags? tags?_elementOf, rfl,
      .tagged tags?_elementOf delimit (fun root member => (rooted root member).1)
        (fun root member => (rooted root member).2) fills.tiled fills.apart isContent
        childrenPlaced⟩
  · exact ⟨rfl, rfl,
      .tagged rfl delimit (by simp) (by simp) fills.tiled fills.apart isContent childrenPlaced⟩

/-! ## Braces -/

/-- What the expression in a pair of braces is: an element or a fragment, or anything else with the
markup that was found in it. -/
theorem placed_ofExpression (lawful : node.Lawful source)
    (markup : node.isMarkup = true → TaggedAt source node.span (ofMarkup source ancestors node))
    (rooted : ¬ node.isMarkup = true → Rooted source (roots source ancestors node)) :
    IsExpression (ofExpression source ancestors node)
      ∧ (ofExpression source ancestors node).span = node.span
      ∧ Placed source (ofExpression source ancestors node) := by
  unfold ofExpression
  split
  · have own := markup ‹_›
    exact ⟨Or.inl own.tagged, own.span, own.placed⟩
  · have found := rooted ‹_›
    obtain ⟨piece, delimits⟩ := lawful.stands.own
    exact ⟨Or.inr ⟨rfl, Or.inr ⟨_, rfl⟩⟩, rfl, .other delimits
      (fun root member => (found root member).1) fun root member => (found root member).2⟩

theorem mem_namedChildren_of_expression? {expression : SyntaxNode}
    (found : node.expression? = some expression) : expression ∈ node.namedChildren :=
  List.mem_of_find?_eq_some found

/-- A pair of braces around an expression is placed if that is. -/
theorem placed_ofBraces_some (lawful : node.Lawful source) (braces : node.kind = .jsxExpression)
    {expression : SyntaxNode} (found : node.expression? = some expression) {outline : Outline}
    (isExpression : IsExpression outline) (within : outline.span.Within expression.span)
    (placed : Placed source outline) :
    Placed source (.node .container node.span [] [outline]) := by
  obtain ⟨⟨inside, written⟩, enclosed⟩ := lawful.isComplete.braces braces
  obtain ⟨begins, ends⟩ := enclosed expression (mem_namedChildren_of_expression? found)
  have size : Text.bytes ['\x7b'] = 1 ∧ Text.bytes ['\x7d'] = 1 := by decide
  obtain ⟨first, last⟩ := within
  exact .container written ⟨inside, rfl⟩ isExpression ⟨by omega, by omega⟩ placed

/-- A pair of braces around nothing but comments is placed. -/
theorem placed_ofBraces_none (lawful : node.Lawful source) (braces : node.kind = .jsxExpression) :
    Placed source (.node .container node.span []
      [.node .empty ⟨node.span.start + 1, node.span.stop - 1⟩ [] []]) := by
  obtain ⟨⟨inside, written⟩, -⟩ := lawful.isComplete.braces braces
  have size : Text.bytes ['\x7b'] = 1 ∧ Text.bytes ['\x7d'] = 1 := by decide
  have inner := Text.slice?_part written
  have whole := Text.stop_of_slice? written
  simp only [Text.bytes_append, size] at whole inner
  have stop : node.span.stop - 1 = node.span.start + 1 + Text.bytes inside := by omega
  have delimits : Span.Delimits ⟨node.span.start + 1, node.span.stop - 1⟩ source inside := by
    rw [stop]
    exact inner
  exact .container written ⟨inside, rfl⟩ (Or.inr ⟨rfl, Or.inl rfl⟩)
    ⟨Nat.le_refl _, by show node.span.stop - 1 + 1 ≤ node.span.stop; omega⟩ (.empty delimits)

/-! ## Children -/

/-- A child of an element or a fragment is content if what is read off it is placed. -/
theorem placed_ofChild {child : SyntaxNode} (structural : child.isStructural = true)
    (braces : child.kind = .jsxExpression → (ofBraces source ancestors child).kind = .container
      ∧ (ofBraces source ancestors child).span = child.span
      ∧ Placed source (ofBraces source ancestors child))
    (markup : child.isMarkup = true →
      TaggedAt source child.span (ofMarkup source ancestors child)) :
    (ofChild source ancestors child).kind.isContent = true
      ∧ (ofChild source ancestors child).kind.text?.isNone = true
      ∧ (ofChild source ancestors child).span = child.span
      ∧ Placed source (ofChild source ancestors child) := by
  unfold ofChild
  split
  · rename_i isBraces
    obtain ⟨kind, span, placed⟩ := braces (by simpa using isBraces)
    exact ⟨by rw [kind]; rfl, by rw [kind]; rfl, span, placed⟩
  · have tagged := markup (isMarkup_of_isStructural structural ‹_›)
    exact ⟨isContent_of_isTagged tagged.tagged, text?_of_isTagged tagged.tagged, tagged.span,
      tagged.placed⟩

/-! ## The walk -/

/-- What is read off a lawful concrete tree stands in the source where it says. -/
theorem placement (source : Text) :
    (∀ ancestors node, node.Lawful source →
      Encloses source (contextOf source ancestors) node.span.start node.span.stop →
      Rooted source (roots source ancestors node))
    ∧ (∀ ancestors nodes, (∀ node ∈ nodes, node.Lawful source
        ∧ Encloses source (contextOf source ancestors) node.span.start node.span.stop) →
      Rooted source (rootsIn source ancestors nodes))
    ∧ (∀ ancestors node, node.Lawful source → node.isMarkup = true →
      TaggedAt source node.span (ofMarkup source ancestors node))
    ∧ (∀ ancestors start stop structural,
      (∀ child ∈ structural, child.Lawful source ∧ child.isStructural = true) →
      Span.InOrder start (structural.map (·.span)) stop →
      Text.isBoundary source start = true → Text.isBoundary source stop = true →
      Fills source start (childrenIn source ancestors start stop structural) stop)
    ∧ ∀ ancestors node, node.Lawful source → node.kind = .jsxExpression →
      (ofBraces source ancestors node).kind = .container
        ∧ (ofBraces source ancestors node).span = node.span
        ∧ Placed source (ofBraces source ancestors node) := by
  -- The cases are those of `roots`, `rootsIn`, `ofMarkup`, `childrenIn` and `ofBraces`, in turn.
  apply roots.mutual_induct source
  case case1 =>
    intro ancestors node isMarkup tagged lawful encloses
    have own := tagged lawful isMarkup
    rw [roots_of_isMarkup isMarkup]
    exact rooted_under encloses own.tagged (by rw [own.span]) (by rw [own.span]) own.placed
  case case2 =>
    intro ancestors node other rooted lawful encloses
    rw [roots_of_not_isMarkup other]
    refine rooted fun child member => ?_
    have isChild := mem_children_of_mem_namedChildren member
    exact ⟨lawful.child isChild, encloses.below lawful isChild⟩
  case case3 =>
    intro ancestors _
    rw [rootsIn_nil]
    exact .nil
  case case4 =>
    intro ancestors first rest own others lawful
    rw [rootsIn_cons]
    obtain ⟨lawfulFirst, encloses⟩ := lawful first List.mem_cons_self
    exact (own lawfulFirst encloses).append
      (others fun node member => lawful node (List.mem_cons_of_mem _ member))
  case case5 =>
    intro ancestors node single rooted lawful _
    have kind : node.kind = .jsxSelfClosing := by simpa using single
    rw [ofMarkup_of_selfClosing single]
    refine taggedAt_ofSelfClosing lawful kind (rooted fun given member => ?_)
    have isChild := mem_children_of_mem_attributes member
    exact ⟨lawful.child isChild,
      (Encloses.own _ lawful (by rw [kind]; decide)).mono (lawful.within isChild).1
        (lawful.within isChild).2⟩
  case case6 =>
    intro ancestors node paired opening closing opens closes tags aside children lawful isMarkup
    obtain ⟨content, pair⟩ := lawful.exists_content isMarkup paired opens closes
    have lawfulOpening := lawful.child pair.mem_opening
    have lawfulClosing := lawful.child pair.mem_closing
    rw [ofMarkup_of_tags paired opens closes]
    refine taggedAt_ofTags pair lawful (aside fun given member => ?_) ?_
    · have isChild := mem_children_of_mem_attributes member
      exact ⟨lawfulOpening.child isChild,
        (Encloses.own _ lawfulOpening (by rw [pair.kindOpening]; decide)).mono
          (lawfulOpening.within isChild).1 (lawfulOpening.within isChild).2⟩
    · refine children (fun child member => ?_) ?_ lawfulOpening.sound.last
        lawfulClosing.sound.first
      · exact ⟨lawful.child (mem_children_of_mem_structuralIn member),
          structural_of_mem_structuralIn member⟩
      · exact pair.structural_inOrder lawful.stands
  case case7 =>
    intro ancestors node paired missing lawful isMarkup
    obtain ⟨opening, closing, content, pair⟩ := lawful.exists_pair isMarkup paired
    exact (missing opening closing pair.opens pair.closes).elim
  case case8 =>
    intro ancestors start stop _ inOrder first last
    rw [childrenIn_nil]
    exact fills_ofText first last inOrder
  case case9 =>
    intro ancestors start stop child rest braces markup others lawful inOrder first last
    obtain ⟨lawfulChild, structural⟩ := lawful child List.mem_cons_self
    obtain ⟨behind, -, inOrderRest⟩ := inOrder
    have fills := others (fun node member => lawful node (List.mem_cons_of_mem _ member))
      inOrderRest lawfulChild.sound.last last
    obtain ⟨isContent, other, span, placed⟩ :=
      placed_ofChild structural (braces lawfulChild) (markup lawfulChild)
    rw [childrenIn_cons, ← span]
    refine .step first ?_ ?_ isContent other placed ?_
    · rw [span]
      exact lawfulChild.sound.first
    · rw [span]
      exact behind
    · rw [span]
      exact fills
  case case10 =>
    intro ancestors node empty lawful braces
    rw [ofBraces_of_none empty]
    exact ⟨rfl, rfl, placed_ofBraces_none lawful braces⟩
  case case11 =>
    intro ancestors node expression found inner markup rooted lawful braces
    have isChild := mem_of_expression? found
    have inExpression := unparenthesize_mem_parts (node :: ancestors) expression
    have lawfulInner := (lawful.child isChild).part inExpression
    have encloses := ((Encloses.own ancestors lawful (by rw [braces]; decide)).mono
      (lawful.within isChild).1 (lawful.within isChild).2).unparenthesize (lawful.child isChild)
    obtain ⟨isExpression, span, placed⟩ := placed_ofExpression lawfulInner
      (markup lawfulInner) fun _ => rooted lawfulInner encloses
    rw [ofBraces_of_some found]
    refine ⟨rfl, rfl, placed_ofBraces_some lawful braces found isExpression ?_ placed⟩
    rw [span]
    exact (lawful.child isChild).stands.within inExpression

/-- An element or a fragment stands where its node does. -/
theorem taggedAt_ofMarkup (lawful : node.Lawful source) (markup : node.isMarkup = true) :
    TaggedAt source node.span (ofMarkup source ancestors node) :=
  (placement source).2.2.1 ancestors node lawful markup

theorem placed_ofBraces (lawful : node.Lawful source) (braces : node.kind = .jsxExpression) :
    (ofBraces source ancestors node).kind = .container
      ∧ (ofBraces source ancestors node).span = node.span
      ∧ Placed source (ofBraces source ancestors node) :=
  (placement source).2.2.2.2 ancestors node lawful braces

/-- The markup of a source is rooted in it. -/
theorem rooted_roots {root : SyntaxNode} (lawful : root.Lawful source) :
    Rooted source (roots source [] root) := by
  refine (placement source).1 [] root lawful ⟨rfl, ⟨source, ?_, fun isContainer => ?_⟩,
    Nat.zero_le _, lawful.sound.inside⟩
  · exact Text.slice?_whole source
  · cases isContainer

end Outline

end FragmentLint
