import FragmentLint.Proofs.Grammar.Comments
import FragmentLint.Proofs.Markup.Separation

/-!
Contract: which comments the tree of an accepted source collects, and which braces are empty in it.

They are all the nodes of the concrete tree that are comments. They stand in the source one behind
the other, as they are written, and none of them shares a byte with a text between tags or with a
literal that an attribute is set to. Braces between tags are empty if nothing but white space and
comments stands in them. Hidden lines count as no comments: they are not collected, and braces
around one are not empty. Main statement: `Tree.collectsComments_ofSource`.

Does not own: where comments stand next to markup of other kinds.
-/

namespace FragmentLint

namespace SyntaxNode

variable {source : Text} {node : SyntaxNode}

mutual
/-- The comments of a tree are its nodes of that kind. -/
theorem comments_eq_filter (node : SyntaxNode)
    (tokens : ∀ part ∈ node.parts, part.kind = .comment → part.children = []) :
    node.comments = node.parts.filter (·.kind == .comment) := by
  cases node with
  | mk info children =>
    rw [comments, parts, List.filter_cons]
    split
    next isComment =>
      obtain rfl : children = [] := tokens _ (mem_parts_self _) (eq_of_beq isComment)
      rw [if_pos (by exact isComment)]
      rfl
    next other =>
      rw [if_neg (by exact other)]
      refine commentsOfAll_eq_filter children fun part below => tokens part ?_
      rw [parts]
      exact List.mem_cons_of_mem _ below

theorem commentsOfAll_eq_filter (nodes : List SyntaxNode)
    (tokens : ∀ part ∈ partsOfAll nodes, part.kind = .comment → part.children = []) :
    commentsOfAll nodes = (partsOfAll nodes).filter (·.kind == .comment) := by
  cases nodes with
  | nil =>
    rw [commentsOfAll, partsOfAll]
    rfl
  | cons first rest =>
    rw [partsOfAll] at tokens
    rw [commentsOfAll, partsOfAll, List.filter_append,
      comments_eq_filter first fun part below => tokens part (List.mem_append_left _ below),
      commentsOfAll_eq_filter rest fun part below => tokens part (List.mem_append_right _ below)]
end

/-- The body of a comment is what stands between its marks. -/
theorem commentBody_of_commentAt {text body : Text} {span : Span}
    (delimits : span.Delimits source text) (written : CommentAt source span body) :
    Lowering.commentBody text = body := by
  cases written with
  | line other =>
    rw [delimits.unique other]
    rfl
  | block other =>
    rw [delimits.unique other]
    show (if ['*', '/'].isSuffixOf (body ++ ['*', '/']) then _ else _) = _
    rw [if_pos (by simp)]
    simp

theorem commentAt_ofNode (stands : node.StandsIn source)
    (written : ∃ body, CommentAt source node.span body) :
    CommentAt source (Comment.ofNode source node).span (Comment.ofNode source node).body := by
  obtain ⟨body, written⟩ := written
  have delimits := Lowering.slice_eq_ok_iff.1 (Lowering.slice_span_eq stands)
  show CommentAt source node.span (Lowering.commentBody _)
  rwa [commentBody_of_commentAt delimits written]

theorem CommentAt.start_lt_stop {span : Span} {body : Text} (written : CommentAt source span body) :
    span.start < span.stop := by
  cases written with
  | line delimits => exact delimits.start_lt_stop (List.cons_ne_nil _ _)
  | block delimits => exact delimits.start_lt_stop (List.cons_ne_nil _ _)

end SyntaxNode

namespace Outline

open SyntaxNode

variable {source : Text} {root : SyntaxNode} {ancestors : List SyntaxNode} {outline : Outline}

/-- No expression is the nothing in empty braces. -/
theorem kind_ofExpression_ne_empty {node : SyntaxNode} (lawful : node.Lawful source) :
    (ofExpression source ancestors node).kind ≠ .empty := by
  unfold ofExpression
  split
  next markup =>
    have own := @taggedAt_ofMarkup source ancestors node lawful markup
    have tagged := own.tagged
    intro isEmpty
    rw [isEmpty] at tagged
    cases tagged
  next => exact NodeKind.noConfusion

/-- Braces are empty if and only if there is no expression in them. -/
theorem kind_ofBraces_iff {node : SyntaxNode} (lawful : node.Lawful source) :
    ∃ only, (ofBraces source ancestors node).children = [only]
      ∧ (only.kind = .empty ↔ node.expression? = none) := by
  cases found : node.expression? with
  | none =>
    rw [ofBraces_of_none found]
    exact ⟨_, rfl, iff_of_true rfl rfl⟩
  | some expression =>
    rw [ofBraces_of_some found]
    have inExpression := unparenthesize_mem_parts (node :: ancestors) expression
    have lawfulInner := (lawful.child (mem_of_expression? found)).part inExpression
    exact ⟨_, rfl, iff_of_false (kind_ofExpression_ne_empty lawfulInner) (by simp)⟩

theorem text?_of_isContext {kind : NodeKind} (isContext : kind.isContext = true) :
    kind.text? = none := by
  cases kind <;> first | rfl | cases isContext

/-- Nothing but an element or a fragment has a text for a child. -/
theorem Placed.isTagged_of_text {outline child : Outline}
    (placed : Placed source outline) (member : child ∈ outline.children)
    (isText : child.kind.text?.isSome = true) : outline.kind.isTagged = true := by
  have absurdIfTagged (tagged : child.kind.isTagged = true) : False := by
    rw [Option.isNone_iff_eq_none.1 (text?_of_isTagged tagged)] at isText
    cases isText
  cases placed with
  | text => cases member
  | empty => cases member
  | other => cases member
  | container _ _ expression =>
    rw [List.mem_singleton.1 member] at isText absurdIfTagged
    rcases expression with tagged | ⟨-, isEmpty | ⟨construct, isOther⟩⟩
    · exact (absurdIfTagged tagged).elim
    · rw [isEmpty] at isText
      cases isText
    · rw [isOther] at isText
      cases isText
  | tagged tagsEq =>
    rw [← NodeKind.isSome_tags?]
    exact Option.isSome_of_eq_some tagsEq
  | root _ _ _ tagged =>
    rw [List.mem_singleton.1 member] at absurdIfTagged
    exact (absurdIfTagged tagged).elim

end Outline

namespace Tree

open SyntaxNode Outline

variable {source : Text} {root : SyntaxNode} {tree : Tree} {all : List Entry}

/-- Whether the comments of a tree are those of a concrete tree, and whether what it takes for empty
is. -/
structure CollectsComments (source : Text) (root : SyntaxNode) (tree : Tree) : Prop where
  /-- The nodes of the concrete tree, each in front of those below it, are searched for comments. -/
  collected : tree.comments.map (·.span)
    = (root.parts.filter (·.kind == .comment)).map (·.span)
  ordered : tree.comments.Pairwise fun first second =>
    first.span.start < second.span.start ∧ first.span.stop ≤ second.span.start
  written : ∀ comment ∈ tree.comments, CommentAt source comment.span comment.body
  texts : ∀ id node raw, tree.node? id = some node → node.kind = .text raw →
    ∀ comment ∈ tree.comments, comment.span.Disjoint node.span
  literals : ∀ id node element, tree.node? id = some node → node.kind = .element element →
    ∀ given ∈ element.attributes, ∀ raw, given.value = some (.literal raw) →
      ∃ place, given.LiteralAt source root raw place
        ∧ ∀ comment ∈ tree.comments, comment.span.Disjoint place
  /-- Braces between tags. -/
  braces : ∀ id node parent above, tree.node? id = some node → node.kind = .container →
    node.parent = some parent → tree.kind? parent = some above → above.isTagged = true →
      ∃ inside, node.span.Delimits source ('\x7b' :: (inside ++ ['\x7d']))
        ∧ ((∃ only, node.children = [only] ∧ tree.kind? only = some .empty) ↔ Text.IsLayout inside)

/-! ## Comments -/

/-- What is kept of the comments of a tree whose parser keeps them apart. -/
theorem comments_of_keepsComments (lawful : root.Lawful source)
    (keeps : root.KeepsComments source) :
    (root.comments.map (Comment.ofNode source)).Pairwise (fun first second =>
        first.span.start < second.span.start ∧ first.span.stop ≤ second.span.start)
      ∧ ∀ comment ∈ root.comments.map (Comment.ofNode source),
        CommentAt source comment.span comment.body := by
  have written : ∀ comment ∈ root.comments.map (Comment.ofNode source),
      CommentAt source comment.span comment.body := by
    intro comment member
    obtain ⟨node, inComments, rfl⟩ := List.mem_map.1 member
    obtain ⟨inRoot, isComment⟩ := mem_comments root node inComments
    exact commentAt_ofNode (lawful.stands.part inRoot) (keeps.tokens node inRoot isComment).2
  refine ⟨?_, written⟩
  have behind := (inOrder_comments root lawful.stands).pairwise
  rw [List.pairwise_map] at behind
  rw [List.pairwise_map]
  refine behind.imp_of_mem ?_
  intro first second isFirst _ before
  have visible := (written _ (List.mem_map_of_mem isFirst)).start_lt_stop
  exact ⟨Nat.lt_of_lt_of_le visible before, before⟩

/-! ## Texts and literals -/

/-- A text that is recorded stands between two tags that are written in the source. -/
theorem Records.disjoint_text (records : tree.Records all) (lawful : root.Lawful source)
    (keeps : root.KeepsComments source)
    (written : ∀ entry ∈ all, Written source root entry.parent entry.outline)
    {id : Nat} {node : Node} (found : tree.node? id = some node) {raw : Text}
    (isText : node.kind = .text raw) {comment : SyntaxNode} (collected : comment ∈ root.comments) :
    comment.span.Disjoint node.span := by
  obtain ⟨entry, listed, describes⟩ := records.lists.exists_entry found
  have isTextToo : entry.outline.kind.text?.isSome = true := by
    rw [← describes.kind, isText]
    rfl
  cases isParent : node.parent with
  | none =>
    -- Roots are no texts.
    have noParent := describes.parent
    rw [isParent] at noParent
    have own := written entry (List.mem_of_getElem? listed)
    rw [← noParent] at own
    generalize entry.outline = outline at own isTextToo
    cases own with
    | @root ancestors =>
      have noText := text?_of_isContext (@isContext_contextOf source ancestors)
      change (Lowering.contextOf source ancestors).1.text?.isSome = true at isTextToo
      rw [noText] at isTextToo
      cases isTextToo
  | some parent =>
    obtain ⟨above, listedAbove, isChild⟩ := describes.under parent isParent
    have memberAbove := List.mem_of_getElem? listedAbove
    have tagged := (records.placed above memberAbove).isTagged_of_text isChild isTextToo
    obtain ⟨ancestors, part, inRoot, markup, aboveEq⟩ :=
      (written above memberAbove).exists_markup tagged
    rw [aboveEq] at isChild
    rw [describes.span]
    exact disjoint_of_text lawful keeps inRoot markup isChild isTextToo collected

/-! ## Braces -/

/-- A pair of braces that is recorded below another node is empty if and only if what stands in it
is layout. -/
theorem Records.empty_iff_isLayout (records : tree.Records all) (lawful : root.Lawful source)
    (keeps : root.KeepsComments source)
    (written : ∀ entry ∈ all, Written source root entry.parent entry.outline)
    {id parent : Nat} {node : Node} {above : NodeKind} (found : tree.node? id = some node)
    (isContainer : node.kind = .container) (isParent : node.parent = some parent)
    (foundAbove : tree.kind? parent = some above) :
    ∃ inside, node.span.Delimits source ('\x7b' :: (inside ++ ['\x7d']))
      ∧ ((∃ only, node.children = [only] ∧ tree.kind? only = some .empty)
        ↔ Text.IsLayout inside) := by
  obtain ⟨entry, listed, describes⟩ := records.lists.exists_entry found
  have own := written entry (List.mem_of_getElem? listed)
  have parentEq : entry.parent = some above := by
    rw [← describes.parent, isParent]
    exact (congrFun records.lists.kind?_eq parent).symm.trans foundAbove
  rw [parentEq] at own
  obtain ⟨ancestors, part, inRoot, braces, outlineEq⟩ :=
    own.exists_braces lawful (describes.kind.symm.trans isContainer)
  have lawfulPart := lawful.part inRoot
  obtain ⟨inside, delimits, layoutIff⟩ :=
    isLayout_iff_of_braces lawfulPart braces (keeps.braces part inRoot braces)
  obtain ⟨only, lone, emptyIff⟩ := @kind_ofBraces_iff source ancestors part lawfulPart
  have spanEq := (@placed_ofBraces source ancestors part lawfulPart braces).2.1
  rw [← outlineEq] at lone spanEq
  obtain ⟨onlyId, child, childrenEq, foundOnly, describesOnly⟩ :=
    records.lists.exists_only_child describes lone
  have onlyKind : tree.kind? onlyId = some only.kind := by
    rw [kind?, foundOnly, Option.map_some, describesOnly.kind]
  refine ⟨inside, ?_, ?_⟩
  · rw [describes.span, spanEq]
    exact delimits
  · rw [← layoutIff, ← emptyIff]
    constructor
    · rintro ⟨other, otherEq, isEmpty⟩
      obtain rfl := List.singleton_inj.1 (childrenEq.symm.trans otherEq)
      exact Option.some.inj (onlyKind.symm.trans isEmpty)
    · intro isEmpty
      exact ⟨onlyId, childrenEq, onlyKind.trans (congrArg some isEmpty)⟩

section Parser

variable [SyntaxParser] [LawfulSyntaxParser] [LawfulComments] {dialect : Dialect}

/-- The comments of an accepted source are all the nodes of its concrete tree that are comments.
They stand in it one behind the other, with a body between the marks of a comment, apart from all
texts and from all literals in tags. A pair of braces among the children of an element or a fragment
is empty if and only if white space and comments are all that it holds. -/
theorem collectsComments_ofSource (accepted : ofSource dialect source = .ok tree) :
    ∃ root, SyntaxParser.parse? dialect source = some root
      ∧ tree.CollectsComments source root := by
  obtain ⟨root, parsed, sound, rfl⟩ := ofSource_eq_ok_iff.1 accepted
  have lawful := LawfulSyntaxParser.lawful parsed sound
  have keeps : root.KeepsComments source := LawfulComments.keepsComments parsed sound
  have records := records_ofSyntax lawful
  have written := written_roots lawful
  have tokens := fun part below isComment => (keeps.tokens part below isComment).1
  obtain ⟨ordered, each⟩ := comments_of_keepsComments lawful keeps
  have commentsEq := comments_ofSyntax source root
  refine ⟨root, parsed, ?_, ?_, ?_, ?_, ?_, ?_⟩
  · rw [commentsEq, ← comments_eq_filter root tokens, List.map_map]
    rfl
  · rwa [commentsEq]
  · rwa [commentsEq]
  · intro id node raw found isText comment member
    rw [commentsEq] at member
    obtain ⟨part, collected, rfl⟩ := List.mem_map.1 member
    exact records.disjoint_text lawful keeps written found isText collected
  · intro id node element found isElement given member raw isLiteral
    obtain ⟨entry, listed, describes⟩ := records.lists.exists_entry found
    have own := written entry (List.mem_of_getElem? listed)
    obtain ⟨place, literal, apart⟩ := Attribute.exists_literalAt lawful keeps own
      (describes.kind.symm.trans isElement) member isLiteral
    refine ⟨place, literal, ?_⟩
    intro comment isComment
    rw [commentsEq] at isComment
    obtain ⟨part, collected, rfl⟩ := List.mem_map.1 isComment
    exact apart part collected
  · intro id node parent above found braces isParent foundAbove _
    exact records.empty_iff_isLayout lawful keeps written found braces isParent foundAbove

end Parser

open Scripts

/-- Of four comments one stands in front of a string and two in empty braces. Neither the string nor the
text, which look like comments, is one. -/
theorem collectsComments_ofSource_paragraph :
    ∃ tree root, ofSource .javascript
        "// h\n<p a/*x*/=\"//y\">// t\x7b/*c*/ //d\n\x7d\x7b1\x7d</p>".toList = .ok tree
      ∧ tree.comments = [⟨⟨0, 4⟩, " h".toList⟩, ⟨⟨9, 14⟩, "x".toList⟩, ⟨⟨26, 31⟩, "c".toList⟩,
        ⟨⟨32, 35⟩, "d".toList⟩]
      ∧ [2, 4, 6].map tree.kind? = [some (.text "// t".toList), some .empty, some (.other .number)]
      ∧ SyntaxParser.parse? .javascript
        "// h\n<p a/*x*/=\"//y\">// t\x7b/*c*/ //d\n\x7d\x7b1\x7d</p>".toList = some root
      ∧ tree.CollectsComments
        "// h\n<p a/*x*/=\"//y\">// t\x7b/*c*/ //d\n\x7d\x7b1\x7d</p>".toList root := by
  have computed :
      (ofSource .javascript
          "// h\n<p a/*x*/=\"//y\">// t\x7b/*c*/ //d\n\x7d\x7b1\x7d</p>".toList).toOption.map
        (fun tree => (tree.comments, [2, 4, 6].map tree.kind?))
      = some ([⟨⟨0, 4⟩, " h".toList⟩, ⟨⟨9, 14⟩, "x".toList⟩, ⟨⟨26, 31⟩, "c".toList⟩,
          ⟨⟨32, 35⟩, "d".toList⟩],
        [some (.text "// t".toList), some .empty, some (.other .number)]) := by
    decide +kernel
  obtain ⟨tree, isTree, parts⟩ := Option.map_eq_some_iff.1 computed
  obtain ⟨comments, kinds⟩ := Prod.mk.inj parts
  obtain ⟨root, parsed, collects⟩ := collectsComments_ofSource (ok_of_toOption isTree)
  exact ⟨tree, root, ok_of_toOption isTree, comments, kinds, parsed, collects⟩

end Tree

end FragmentLint
