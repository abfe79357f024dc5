import FragmentLint.Lint
import FragmentLint.Proofs.Except
import FragmentLint.Proofs.Markup.Guarantees
import FragmentLint.Proofs.Markup.Readout

/-!
Contract: the lowering of a concrete tree numbers the outlines of its markup.

If the nodes of a concrete tree stand in the source, no slice fails. Then a walk of the tree is the
same as reading off outlines and adding these to the tree that grows, and the comments are those in
the order of a traversal from the left. Main statements: `walk_eq`, `collectComments_eq`,
`ofSource_eq_ok_iff`.
-/

namespace FragmentLint

namespace SyntaxNode

variable {source : Text} {node : SyntaxNode}

/-! ## Nodes that the lowering looks up -/

theorem mem_of_tagName? {tag name : SyntaxNode} (found : tag.tagName? = some name) :
    name ∈ tag.children := by
  rcases Option.or_eq_some_iff.1 found with byField | ⟨-, byKind⟩
  · exact mem_of_childByField? byField
  · exact mem_children_of_mem_namedChildren (List.mem_of_find?_eq_some byKind)

theorem mem_of_closingTag? {element tag : SyntaxNode} (found : element.closingTag? = some tag) :
    tag ∈ element.children := by
  rcases Option.or_eq_some_iff.1 found with byField | ⟨-, byKind⟩
  · exact mem_of_childByField? byField
  · exact mem_of_childOfKind? byKind

theorem mem_of_property? {name property : SyntaxNode} (found : name.property? = some property) :
    property ∈ name.children := by
  rcases Option.or_eq_some_iff.1 found with byField | ⟨-, byPlace⟩
  · exact mem_of_childByField? byField
  · exact mem_children_of_mem_namedChildren (List.mem_of_getElem? byPlace)

theorem mem_children_of_mem_attributes {tag given : SyntaxNode} (member : given ∈ tag.attributes) :
    given ∈ tag.children :=
  mem_children_of_mem_namedChildren (List.mem_filter.1 member).1

theorem mem_children_of_mem_structuralIn {element child : SyntaxNode} {inner : Span}
    (member : child ∈ element.structuralIn inner) : child ∈ element.children :=
  mem_children_of_mem_namedChildren (List.mem_filter.1 member).1

/-- What is left of an expression without its parentheses is a part of it. -/
theorem unparenthesize_mem_parts (ancestors : List SyntaxNode) (node : SyntaxNode) :
    (unparenthesize ancestors node).2 ∈ node.parts := by
  fun_induction unparenthesize ancestors node with
  | case1 ancestors node _ inner found inductionHypothesis =>
    exact mem_parts_trans inductionHypothesis (mem_parts_of_mem_children (mem_of_expression? found))
  | case2 ancestors node => exact node.mem_parts_self
  | case3 ancestors node => exact node.mem_parts_self

end SyntaxNode

namespace Lowering

open SyntaxNode

variable {source : Text} {node : SyntaxNode}

/-! ## Slices -/

theorem slice_eq_ok_iff {span : Span} {piece : Text} :
    slice source span = .ok piece ↔ span.Delimits source piece := by
  unfold slice Span.Delimits
  split <;> simp_all

theorem exists_slice (stands : node.StandsIn source) :
    ∃ piece, slice source node.span = .ok piece := by
  obtain ⟨piece, delimits⟩ := stands.own
  exact ⟨piece, slice_eq_ok_iff.2 delimits⟩

theorem exists_textOf {found : Option SyntaxNode} (stands : ∀ part ∈ found, part.StandsIn source) :
    ∃ piece, textOf source found = .ok piece := by
  cases found with
  | none => exact ⟨[], rfl⟩
  | some part => exact exists_slice (stands part rfl)

/-! ## Tags -/

theorem exists_lowerName (stands : node.StandsIn source) :
    ∃ name, lowerName source node = .ok name := by
  fun_induction lowerName source node with
  | case1 node dotted _ object found inductionHypothesis =>
    obtain ⟨objectName, objectEq⟩ := inductionHypothesis (stands.child (mem_of_object? found))
    obtain ⟨property, propertyEq⟩ := exists_textOf fun part partEq =>
      stands.child (mem_of_property? partEq)
    exact ⟨_, bind_eq_ok_iff.2 ⟨_, objectEq, bind_eq_ok_iff.2 ⟨_, propertyEq, rfl⟩⟩⟩
  | case2 node dotted _ missing =>
    obtain ⟨property, propertyEq⟩ := exists_textOf fun part partEq =>
      stands.child (mem_of_property? partEq)
    exact ⟨_, bind_eq_ok_iff.2 ⟨_, rfl, bind_eq_ok_iff.2 ⟨_, propertyEq, rfl⟩⟩⟩
  | case3 node =>
    have half (index : Nat) : ∃ piece, textOf source node.namedChildren[index]? = .ok piece :=
      exists_textOf fun part partEq =>
        stands.child (mem_children_of_mem_namedChildren (List.mem_of_getElem? partEq))
    obtain ⟨space, spaceEq⟩ := half 0
    obtain ⟨suffix, suffixEq⟩ := half 1
    exact ⟨_, bind_eq_ok_iff.2 ⟨_, spaceEq, bind_eq_ok_iff.2 ⟨_, suffixEq, rfl⟩⟩⟩
  | case4 node =>
    obtain ⟨word, wordEq⟩ := exists_slice stands
    exact ⟨_, bind_eq_ok_iff.2 ⟨_, wordEq, rfl⟩⟩

theorem exists_lowerTagName (stands : node.StandsIn source) :
    ∃ name, lowerTagName source node = .ok name := by
  unfold lowerTagName
  split
  · exact exists_lowerName (stands.child (mem_of_tagName? ‹_›))
  · exact ⟨_, rfl⟩

theorem exists_lowerValue (stands : node.StandsIn source) :
    ∃ value, lowerValue source node = .ok value := by
  obtain ⟨piece, pieceEq⟩ := exists_slice stands
  unfold lowerValue
  split
  · exact ⟨_, rfl⟩
  · split
    · exact ⟨_, rfl⟩
    · exact ⟨_, bind_eq_ok_iff.2 ⟨_, pieceEq, rfl⟩⟩

theorem exists_mapM_option {α β : Type} {f : α → Except BadSlice β} {item : Option α}
    (succeeds : ∀ found ∈ item, ∃ result, f found = .ok result) :
    ∃ result, item.mapM f = .ok result := by
  cases item with
  | none => exact ⟨none, rfl⟩
  | some found =>
    obtain ⟨result, resultEq⟩ := succeeds found rfl
    exact ⟨some result, by rw [Option.mapM_some, resultEq]; rfl⟩

theorem exists_lowerAttribute (stands : node.StandsIn source) :
    ∃ given, lowerAttribute source node = .ok given := by
  unfold lowerAttribute
  split
  · exact ⟨_, rfl⟩
  · have half (index : Nat) : ∀ part ∈ (node.namedChildren.filter (·.kind != .comment))[index]?,
        part.StandsIn source := fun part found =>
      stands.child (mem_children_of_mem_namedChildren
        (List.mem_filter.1 (List.mem_of_getElem? found)).1)
    obtain ⟨key, keyEq⟩ := exists_mapM_option fun part found => exists_slice (half 0 part found)
    obtain ⟨value, valueEq⟩ := exists_mapM_option fun part found =>
      exists_lowerValue (half 1 part found)
    exact ⟨_, bind_eq_ok_iff.2 ⟨_, keyEq, bind_eq_ok_iff.2 ⟨_, valueEq, rfl⟩⟩⟩

/-- An attribute stands where it was found. -/
theorem span_lowerAttribute {given : Attribute} (lowered : lowerAttribute source node = .ok given) :
    given.span = node.span := by
  unfold lowerAttribute at lowered
  split at lowered
  · cases lowered
    rfl
  · obtain ⟨key, -, lowered⟩ := bind_eq_ok_iff.1 lowered
    obtain ⟨value, -, lowered⟩ := bind_eq_ok_iff.1 lowered
    cases lowered
    rfl

/-- What an element has in its tag. -/
theorem lowerElement_eq_ok_iff {tag : SyntaxNode} {tags : Tags} {kind : NodeKind} :
    lowerElement source tag tags = .ok kind ↔
      ∃ name attributes, kind = .element ⟨name, attributes, tags⟩
        ∧ lowerTagName source tag = .ok name
        ∧ List.Forall₂ (fun given lowered => lowerAttribute source given = .ok lowered)
          tag.attributes attributes := by
  unfold lowerElement
  simp only [bind_eq_ok_iff, mapM_eq_ok_iff, pure, Except.pure, Except.ok.injEq]
  constructor
  · rintro ⟨name, named, attributes, given, rfl⟩
    exact ⟨name, attributes, rfl, named, given⟩
  · rintro ⟨name, attributes, rfl, named, given⟩
    exact ⟨name, named, attributes, given, rfl⟩

theorem exists_lowerElement {tag : SyntaxNode} (stands : tag.StandsIn source) (tags : Tags) :
    ∃ kind, lowerElement source tag tags = .ok kind := by
  obtain ⟨name, named⟩ := exists_lowerTagName stands
  obtain ⟨attributes, given⟩ := exists_mapM_eq_ok fun given (member : given ∈ tag.attributes) =>
    exists_lowerAttribute (stands.child (mem_children_of_mem_attributes member))
  exact ⟨_, lowerElement_eq_ok_iff.2 ⟨name, attributes, rfl, named, mapM_eq_ok_iff.1 given⟩⟩

end Lowering

namespace Outline

open SyntaxNode Lowering

variable {source : Text} {tag : SyntaxNode} {tags : Tags}

theorem lowerElement_eq (stands : tag.StandsIn source) (tags : Tags) :
    lowerElement source tag tags = .ok (elementOf source tag tags) := by
  obtain ⟨kind, lowered⟩ := exists_lowerElement stands tags
  unfold elementOf
  rw [lowered]

theorem tags?_elementOf : (elementOf source tag tags).tags? = some tags := by
  unfold elementOf
  split
  · obtain ⟨name, attributes, rfl, -⟩ := lowerElement_eq_ok_iff.1 ‹_›
    rfl
  · rfl

/-! ## The walk -/

theorem pushAll_append (tree : Tree) (parent : Option Nat) (left right : List Outline) :
    pushAll tree parent (left ++ right) = pushAll (pushAll tree parent left) parent right := by
  induction left generalizing tree with
  | nil => simp only [List.nil_append, pushAll]
  | cons first rest inductionHypothesis =>
    simp only [List.cons_append, pushAll, inductionHypothesis]

theorem slice_textAt {start stop : Nat} (first : Text.isBoundary source start = true)
    (last : Text.isBoundary source stop = true) (ordered : start ≤ stop) :
    slice source ⟨start, stop⟩ = .ok (textAt source ⟨start, stop⟩) := by
  obtain ⟨piece, sliced⟩ := Text.exists_slice?_of_le first last ordered
  unfold slice textAt
  rw [sliced]
  rfl

/-- A gap between two places where the source can be cut becomes one text, if it is one. -/
theorem pushGap_eq {start stop : Nat} (first : Text.isBoundary source start = true)
    (last : Text.isBoundary source stop = true) (parent : Nat) (tree : Tree) :
    pushGap source start stop parent tree
      = .ok (pushAll tree (some parent) (ofText source start stop)) := by
  unfold pushGap ofText
  split
  · have sliced := slice_textAt first last (Nat.le_of_lt ‹_›)
    simp only [pushText, sliced, pushAll, pushTo]
    rfl
  · simp only [pushAll]

theorem lowerMarkup_of_tags {ancestors : List SyntaxNode} {node opening closing : SyntaxNode}
    (paired : ¬ node.kind == .jsxSelfClosing) (opens : node.openingTag? = some opening)
    (closes : node.closingTag? = some closing) (parent : Option Nat) (tree : Tree) :
    lowerMarkup source ancestors node parent tree =
      if opening.tagName?.isSome then do
        let kind ← lowerElement source opening ⟨opening.span, some closing.span⟩
        let grown ← walkAll source (opening :: node :: ancestors) opening.attributes
          (tree.push kind node.span parent).1
        lowerChildren source (node :: ancestors) tree.size opening.span.stop closing.span.start
          (node.structuralIn ⟨opening.span.stop, closing.span.start⟩) grown
      else
        lowerChildren source (node :: ancestors) tree.size opening.span.stop closing.span.start
          (node.structuralIn ⟨opening.span.stop, closing.span.start⟩)
          (tree.push (.fragment ⟨opening.span, some closing.span⟩) node.span parent).1 := by
  rw [lowerMarkup, if_neg paired]
  split
  · rename_i opens' closes'
    rw [opens] at opens'
    rw [closes] at closes'
    cases opens'
    cases closes'
    rfl
  · rename_i missing
    exact absurd closes (missing _ _ opens)

theorem lowerContainer_of_none {ancestors : List SyntaxNode} {node : SyntaxNode}
    (empty : node.expression? = none) (parent : Nat) (tree : Tree) :
    lowerContainer source ancestors node parent tree
      = .ok (pushTo tree (some parent) (ofBraces source ancestors node)) := by
  rw [lowerContainer, ofBraces_of_none empty]
  split
  · simp only [pushTo, pushAll, Tree.push_id]
  · rename_i found
    rw [empty] at found
    cases found

/-- What stands in braces is numbered behind these. -/
theorem lowerContainer_of_some {ancestors : List SyntaxNode} {node expression : SyntaxNode}
    (found : node.expression? = some expression) {above : List SyntaxNode} {inner : SyntaxNode}
    (innerEq : unparenthesize (node :: ancestors) expression = (above, inner))
    (markup : ∀ parent tree, lowerMarkup source above inner parent tree
      = .ok (pushTo tree parent (ofMarkup source above inner)))
    (walked : ∀ tree, walk source above inner tree
      = .ok (pushAll tree none (roots source above inner))) (parent : Nat) (tree : Tree) :
    lowerContainer source ancestors node parent tree
      = .ok (pushTo tree (some parent) (ofBraces source ancestors node)) := by
  rw [lowerContainer, ofBraces_of_some found]
  split
  · rename_i empty
    rw [found] at empty
    cases empty
  · rename_i found'
    rw [found] at found'
    cases found'
    simp only [pushTo, pushAll, Tree.push_id, ofExpression, innerEq]
    split
    · exact markup _ _
    · rw [walked]
      simp only [pushTo, pushAll]

/-- The lowering of markup numbers its outline. -/
theorem lowering_eq (source : Text) :
    (∀ ancestors node, node.StandsIn source → ∀ tree,
      walk source ancestors node tree = .ok (pushAll tree none (roots source ancestors node)))
    ∧ (∀ ancestors nodes, (∀ node ∈ nodes, node.StandsIn source) → ∀ tree,
      walkAll source ancestors nodes tree
        = .ok (pushAll tree none (rootsIn source ancestors nodes)))
    ∧ (∀ ancestors node, node.StandsIn source → ∀ parent tree,
      lowerMarkup source ancestors node parent tree
        = .ok (pushTo tree parent (ofMarkup source ancestors node)))
    ∧ (∀ ancestors start stop structural, (∀ child ∈ structural, child.StandsIn source) →
      Text.isBoundary source start = true → Text.isBoundary source stop = true →
      ∀ parent tree, lowerChildren source ancestors parent start stop structural tree
        = .ok (pushAll tree (some parent) (childrenIn source ancestors start stop structural)))
    ∧ ∀ ancestors node, node.StandsIn source → ∀ parent tree,
      lowerContainer source ancestors node parent tree
        = .ok (pushTo tree (some parent) (ofBraces source ancestors node)) := by
  -- The cases are those of `roots`, `rootsIn`, `ofMarkup`, `childrenIn` and `ofBraces`, in turn.
  apply roots.mutual_induct source
  case case1 =>
    intro ancestors node isMarkup lowered stands tree
    rw [roots_of_isMarkup isMarkup, walk, if_pos isMarkup]
    simp only [lowered stands, under, pushAll, pushTo, Tree.push_id]
  case case2 =>
    intro ancestors node other walked stands tree
    rw [roots_of_not_isMarkup other, walk, if_neg other]
    exact walked (fun child member => stands.child (mem_children_of_mem_namedChildren member)) tree
  case case3 =>
    intro ancestors _ tree
    rw [walkAll, rootsIn_nil, pushAll]
  case case4 =>
    intro ancestors first rest walked walkedRest stand tree
    rw [walkAll, walked (stand first List.mem_cons_self), rootsIn_cons, pushAll_append]
    exact walkedRest (fun node member => stand node (List.mem_cons_of_mem _ member)) _
  case case5 =>
    intro ancestors node single walked stands parent tree
    rw [ofMarkup_of_selfClosing single, lowerMarkup, if_pos single, lowerElement_eq stands]
    simp only [pushTo, pushAll]
    exact walked (fun given member => stands.child (mem_children_of_mem_attributes member)) _
  case case6 =>
    intro ancestors node paired opening closing opens closes tags walked lowered stands parent tree
    have standsOpening := stands.child (mem_of_openingTag? opens)
    have standsClosing := stands.child (mem_of_closingTag? closes)
    have inAttributes := walked fun given member =>
      standsOpening.child (mem_children_of_mem_attributes member)
    have between := lowered
      (fun child member => stands.child (mem_children_of_mem_structuralIn member))
      standsOpening.sound.last standsClosing.sound.first
    rw [ofMarkup_of_tags paired opens closes, lowerMarkup_of_tags paired opens closes, ofTags]
    split
    · rw [lowerElement_eq standsOpening]
      simp only [pushTo]
      refine bind_eq_ok_iff.2 ⟨_, rfl, bind_eq_ok_iff.2 ⟨_, inAttributes _, between _ _⟩⟩
    · simp only [pushTo, pushAll]
      exact between _ _
  case case7 =>
    intro ancestors node paired missing stands parent tree
    rw [ofMarkup, lowerMarkup, if_neg paired, if_neg paired]
    split
    · exact absurd ‹_› (missing _ _ ‹_›)
    · simp only [pushTo, pushAll]
  case case8 =>
    intro ancestors start stop _ first last parent tree
    rw [lowerChildren, childrenIn_nil]
    exact pushGap_eq first last parent tree
  case case9 =>
    intro ancestors start stop child rest braces markup others stand first last parent tree
    have standsChild := stand child List.mem_cons_self
    have standRest := fun node member => stand node (List.mem_cons_of_mem _ member)
    have behind (grown : Tree) := others standRest standsChild.sound.last last parent grown
    rw [lowerChildren, childrenIn_cons, pushAll_append, pushAll, ofChild]
    refine bind_eq_ok_iff.2 ⟨_, pushGap_eq first standsChild.sound.first parent tree, ?_⟩
    split
    · exact bind_eq_ok_iff.2 ⟨_, braces standsChild _ _, behind _⟩
    · exact bind_eq_ok_iff.2 ⟨_, markup standsChild _ _, behind _⟩
  case case10 =>
    exact fun ancestors node empty _ => lowerContainer_of_none empty
  case case11 =>
    intro ancestors node expression found inner markup walked stands
    have standsInner := stands.part (mem_parts_trans
      (unparenthesize_mem_parts (node :: ancestors) expression)
      (mem_parts_of_mem_children (mem_of_expression? found)))
    exact lowerContainer_of_some found rfl (markup standsInner) (walked standsInner)

end Outline

/-! ## Comments -/

namespace SyntaxNode

mutual
/-- The comments in a tree, from the left to the right. -/
def comments : SyntaxNode → List SyntaxNode
  | mk info children =>
    if info.kind == .comment then [mk info children] else commentsOfAll children

/-- The comments in several trees. -/
def commentsOfAll : List SyntaxNode → List SyntaxNode
  | [] => []
  | first :: rest => comments first ++ commentsOfAll rest
end

theorem comments_of_isComment {node : SyntaxNode} (isComment : node.kind == .comment) :
    node.comments = [node] := by
  cases node with
  | mk info children => rw [comments, if_pos (by exact isComment)]

theorem comments_of_other {node : SyntaxNode} (other : ¬ node.kind == .comment) :
    node.comments = commentsOfAll node.children := by
  cases node with
  | mk info children => rw [comments, if_neg (by exact other), children_mk]

theorem commentsOfAll_append (left right : List SyntaxNode) :
    commentsOfAll (left ++ right) = commentsOfAll left ++ commentsOfAll right := by
  induction left with
  | nil => simp [commentsOfAll]
  | cons first rest inductionHypothesis => simp [commentsOfAll, inductionHypothesis]

end SyntaxNode

/-- What is kept of a comment. -/
def Comment.ofNode (source : Text) (node : SyntaxNode) : Comment :=
  ⟨node.span, Lowering.commentBody (Outline.textAt source node.span)⟩

namespace Lowering

open SyntaxNode

variable {source : Text}

theorem slice_span_eq {node : SyntaxNode} (stands : node.StandsIn source) :
    slice source node.span = .ok (Outline.textAt source node.span) :=
  Outline.slice_textAt stands.sound.first stands.sound.last stands.sound.ordered

/-- The stack hands out the comments from the left to the right. -/
theorem collectComments_eq {stack : List SyntaxNode} {tree : Tree}
    (stand : ∀ node ∈ stack, node.StandsIn source) :
    collectComments source stack tree
      = .ok { tree with
        comments := tree.comments ++ (commentsOfAll stack).map (Comment.ofNode source) } := by
  fun_induction collectComments source stack tree with
  | case1 tree => simp [commentsOfAll]
  | case2 tree node rest isComment inductionHypothesis =>
    have sliced := slice_span_eq (stand node List.mem_cons_self)
    have others := inductionHypothesis (Outline.textAt source node.span)
      fun node member => stand node (List.mem_cons_of_mem _ member)
    rw [commentsOfAll, comments_of_isComment isComment, sliced]
    refine bind_eq_ok_iff.2 ⟨_, rfl, others.trans ?_⟩
    simp [Tree.pushComment, Comment.ofNode]
  | case3 tree node rest other inductionHypothesis =>
    have opened := inductionHypothesis fun part member => by
      rw [pushReversed_eq] at member
      rcases List.mem_append.1 member with below | inRest
      · exact (stand node List.mem_cons_self).child below
      · exact stand part (List.mem_cons_of_mem _ inRest)
    rw [commentsOfAll, comments_of_other other, opened, pushReversed_eq, commentsOfAll_append]

end Lowering

/-! ## Whole trees -/

namespace Tree

open SyntaxNode

variable {source : Text} {root : SyntaxNode}

/-- The tree of a concrete tree. -/
def ofSyntax (source : Text) (root : SyntaxNode) : Tree :=
  Outline.pushAll { empty source with comments := root.comments.map (Comment.ofNode source) } none
    (Outline.roots source [] root)

theorem lower_eq (stands : root.StandsIn source) :
    Lowering.lower source root = .ok (ofSyntax source root) := by
  have collected := @Lowering.collectComments_eq source [root] (empty source) fun node member => by
    rw [List.mem_singleton.1 member]
    exact stands
  refine bind_eq_ok_iff.2 ⟨_, collected, ?_⟩
  rw [(Outline.lowering_eq source).1 [] root stands]
  simp [ofSyntax, empty, commentsOfAll]

section Parser

variable [SyntaxParser] [LawfulSyntaxParser] {dialect : Dialect} {tree : Tree}

/-- A source is accepted if and only if its concrete tree has no error, and the markup in that is
what its tree is made of. -/
theorem ofSource_eq_ok_iff :
    ofSource dialect source = .ok tree ↔
      ∃ root, SyntaxParser.parse? dialect source = some root ∧ root.hasError = false
        ∧ tree = ofSyntax source root := by
  unfold ofSource
  cases parsed : SyntaxParser.parse? dialect source with
  | none => simp
  | some root =>
    have lowered := lower_eq (LawfulSyntaxParser.standsIn parsed)
    cases sound : root.hasError with
    | true => simp [sound]
    | false =>
      simp only [sound, lowered, Except.mapError, Option.some.injEq, exists_eq_left', true_and,
        Bool.false_eq_true, if_false, Except.ok.injEq]
      exact eq_comm

/-- A source is refused if and only if there is no concrete tree of it, or one with an error. -/
theorem ofSource_eq_error_iff {reason : LintError} :
    ofSource dialect source = .error reason ↔
      (SyntaxParser.parse? dialect source = none ∧ reason = .noTree)
        ∨ ∃ root, SyntaxParser.parse? dialect source = some root ∧ root.hasError = true
          ∧ reason = .malformedSource root.errorOffset := by
  unfold ofSource
  cases parsed : SyntaxParser.parse? dialect source with
  | none =>
    simp only [Except.error.injEq, reduceCtorEq, false_and, exists_false, or_false, true_and]
    exact eq_comm
  | some root =>
    have lowered := lower_eq (LawfulSyntaxParser.standsIn parsed)
    cases sound : root.hasError with
    | true =>
      simp only [sound, Option.some.injEq, exists_eq_left', true_and, if_true, Except.error.injEq,
        reduceCtorEq, false_and, false_or]
      exact eq_comm
    | false => simp [sound, lowered, Except.mapError]

end Parser

end Tree

end FragmentLint
