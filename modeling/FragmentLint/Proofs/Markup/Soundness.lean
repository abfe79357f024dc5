import FragmentLint.Proofs.Markup.Children
import FragmentLint.Proofs.Markup.Comments
import FragmentLint.Proofs.Markup.Written

/-!
Contract: every span in the tree of an accepted source is sound.

That goes for nodes, tags, attributes and comments. Besides, the tags of a node frame it, attributes
stand in the opening tag one behind the other, and a node lies within its parent. Main statement:
`sound_ofSource`.

Owns: what it means for a node and for a tree to be sound.
-/

namespace FragmentLint

open Grammar

variable {source : Text}

/-! ## Tags -/

/-- Whether tags frame a node: the opening tag begins where the node does, a closing tag stands
behind it and ends where the node does, and a tag that closes itself is the whole node. -/
structure Tags.Frame (tags : Tags) (span : Span) : Prop where
  opening : tags.opening.start = span.start
  closing : ∀ closing ∈ tags.closing,
    tags.opening.stop ≤ closing.start ∧ closing.stop = span.stop
  single : tags.closing = none → tags.opening = span

namespace Tags.Delimit

variable {tags : Tags} {span : Span}

theorem frame (delimit : tags.Delimit source span) : tags.Frame span := by
  obtain ⟨opening, closing⟩ := tags
  cases closing with
  | some closing =>
    obtain ⟨⟨-, ⟨inner, holds⟩, -⟩, first, last⟩ := delimit.parts
    refine ⟨first, ?_, fun none => by cases none⟩
    rintro _ ⟨⟩
    exact ⟨holds.sound.ordered, last⟩
  | none =>
    cases delimit with
    | single => exact ⟨rfl, by simp, fun _ => rfl⟩

/-- Tags are sound. -/
theorem sound (delimit : tags.Delimit source span) :
    tags.opening.Sound source ∧ ∀ closing ∈ tags.closing, closing.Sound source := by
  obtain ⟨opening, closing⟩ := tags
  cases closing with
  | some closing =>
    obtain ⟨⟨⟨_, opens⟩, -, _, closes⟩, -⟩ := delimit.parts
    refine ⟨opens.sound, ?_⟩
    rintro _ ⟨⟩
    exact closes.sound
  | none =>
    cases delimit with
    | single delimits => exact ⟨delimits.sound, by simp⟩

/-- What stands between the tags of a node lies within it. -/
theorem inner_within (delimit : tags.Delimit source span) : tags.inner.Within span := by
  have frame := delimit.frame
  obtain ⟨opens, closes⟩ := delimit.sound
  obtain ⟨opening, closing⟩ := tags
  have begins : span.start ≤ opening.stop := by
    rw [← frame.opening]
    exact opens.ordered
  cases closing with
  | some closing =>
    have ends : closing.start ≤ span.stop := by
      rw [← (frame.closing closing rfl).2]
      exact (closes closing rfl).ordered
    exact ⟨begins, ends⟩
  | none =>
    obtain rfl : opening = span := frame.single rfl
    exact ⟨begins, Nat.le_refl _⟩

end Tags.Delimit

/-! ## Attributes -/

theorem NodeKind.isTagged_of_element? {kind : NodeKind} {element : Element}
    (isElement : kind.element? = some element) : kind.isTagged = true := by
  cases kind with
  | element => rfl
  | _ => cases isElement

namespace Outline

open SyntaxNode Lowering

variable {outline : Outline} {tag : SyntaxNode} {tags : Tags} {element : Element}

/-- An element has the tags that it is given, and an attribute for each one in its tag. -/
theorem spans_of_elementOf (lawful : tag.Lawful source)
    (isElement : (elementOf source tag tags).element? = some element) :
    element.tags = tags ∧ element.attributes.map (·.span) = tag.attributes.map (·.span) := by
  have lowered := lowerElement_eq lawful.stands tags
  obtain ⟨name, attributes, kindEq, -, given⟩ := lowerElement_eq_ok_iff.1 lowered
  rw [kindEq] at isElement
  cases isElement
  refine ⟨rfl, ?_⟩
  have spans := given.imp fun _ _ attributeEq => span_lowerAttribute attributeEq
  have same : List.Forall₂ (fun left right => left = right) (tag.attributes.map (·.span))
      (attributes.map (·.span)) :=
    List.forall₂_map_left_iff.2 (List.forall₂_map_right_iff.2 (spans.imp fun _ _ => Eq.symm))
  exact (List.forall₂_eq_eq_eq ▸ same).symm

/-- The attributes of a tag stand in it one behind the other. -/
theorem attributes_inOrder (lawful : tag.Lawful source) :
    Span.InOrder tag.span.start (tag.attributes.map (·.span)) tag.span.stop
      ∧ ∀ span ∈ tag.attributes.map (·.span), span.Sound source := by
  have sublist : tag.attributes.Sublist tag.children :=
    List.filter_sublist.trans List.filter_sublist
  refine ⟨lawful.stands.childrenInOrder.sublist (sublist.map _), ?_⟩
  intro span member
  obtain ⟨given, isGiven, rfl⟩ := List.mem_map.1 member
  exact (lawful.child (mem_children_of_mem_attributes isGiven)).sound

theorem attributes_of_elementOf (lawful : tag.Lawful source)
    (isElement : (elementOf source tag tags).element? = some element) :
    Span.InOrder tag.span.start (element.attributes.map (·.span)) tag.span.stop
      ∧ ∀ given ∈ element.attributes, given.span.Sound source := by
  obtain ⟨-, spans⟩ := spans_of_elementOf lawful isElement
  obtain ⟨inOrder, sound⟩ := attributes_inOrder lawful
  rw [← spans] at inOrder sound
  exact ⟨inOrder, fun given member => sound _ (List.mem_map_of_mem member)⟩

/-- The attributes of an element stand in its opening tag, one behind the other. -/
theorem attributes_ofMarkup {ancestors : List SyntaxNode} {part : SyntaxNode}
    (lawful : part.Lawful source) (markup : part.isMarkup = true)
    (isElement : (ofMarkup source ancestors part).kind.element? = some element) :
    Span.InOrder element.tags.opening.start (element.attributes.map (·.span))
        element.tags.opening.stop
      ∧ ∀ given ∈ element.attributes, given.span.Sound source := by
  rcases ofMarkup_cases ancestors lawful markup with
    ⟨-, outlineEq⟩ | ⟨opening, closing, content, pair, outlineEq⟩
  · rw [outlineEq] at isElement
    rw [(spans_of_elementOf lawful isElement).1]
    exact attributes_of_elementOf lawful isElement
  · rw [outlineEq, ofTags] at isElement
    split at isElement
    · have lawfulOpening := lawful.child pair.mem_opening
      rw [(spans_of_elementOf lawfulOpening isElement).1]
      exact attributes_of_elementOf lawfulOpening isElement
    · cases isElement

theorem Written.attributes {root : SyntaxNode} {parent : Option NodeKind}
    (lawful : root.Lawful source) (written : Written source root parent outline)
    (isElement : outline.kind.element? = some element) :
    Span.InOrder element.tags.opening.start (element.attributes.map (·.span))
        element.tags.opening.stop
      ∧ ∀ given ∈ element.attributes, given.span.Sound source := by
  obtain ⟨ancestors, part, inRoot, markup, rfl⟩ :=
    written.exists_markup (NodeKind.isTagged_of_element? isElement)
  exact attributes_ofMarkup (lawful.part inRoot) markup isElement

/-! ## Children -/

/-- The children of a placed outline lie within it. -/
theorem Placed.within (placed : Placed source outline) :
    ∀ child ∈ outline.children, child.span.Within outline.span := by
  cases placed with
  | text => simp [Outline.children]
  | empty => simp [Outline.children]
  | other => simp [Outline.children]
  | container _ _ _ within =>
    intro child member
    rw [List.mem_singleton.1 member]
    exact ⟨Nat.le_of_succ_le within.1, Nat.le_of_succ_le within.2⟩
  | tagged _ delimit _ _ tiled _ content placedAll =>
    -- The children tile what stands between the tags, and that lies within the node.
    have tile := tiled.tile fun child member =>
      (placedAll child member).start_lt_stop (content child member)
    obtain ⟨begins, ends⟩ := delimit.inner_within
    intro child member
    obtain ⟨first, last⟩ := tile.inOrder.within child.span (List.mem_map_of_mem member)
    exact ⟨Nat.le_trans begins first, Nat.le_trans last ends⟩
  | root _ _ _ _ within =>
    intro child member
    rw [List.mem_singleton.1 member]
    exact within

end Outline

/-! ## Nodes and trees -/

/-- Whether the spans of a node are sound: its own, those of its tags, which frame it, and those of
its attributes, which stand in its opening tag one behind the other. -/
structure Node.Sound (source : Text) (node : Node) : Prop where
  span : node.span.Sound source
  tags : ∀ tags ∈ node.kind.tags?, tags.Frame node.span ∧ tags.opening.Sound source
    ∧ ∀ closing ∈ tags.closing, closing.Sound source
  attributes : ∀ element ∈ node.kind.element?,
    Span.InOrder element.tags.opening.start (element.attributes.map (·.span))
        element.tags.opening.stop
      ∧ ∀ given ∈ element.attributes, given.span.Sound source

namespace Tree

/-- Whether the spans of a tree are sound: its nodes are, every node lies within its parent, and its
comments stand one behind the other. -/
structure Sound (source : Text) (tree : Tree) : Prop where
  nodes : ∀ id node, tree.node? id = some node → node.Sound source
  children : ∀ id node, tree.node? id = some node → ∀ child ∈ node.children,
    ∃ below, tree.node? child = some below ∧ below.span.Within node.span
  parents : ∀ id node, tree.node? id = some node → ∀ parent ∈ node.parent,
    ∃ above, tree.node? parent = some above ∧ node.span.Within above.span
  comments : ∀ comment ∈ tree.comments, comment.span.Sound source
  inOrder : Span.InOrder 0 (tree.comments.map (·.span)) (Text.bytes source)

variable {tree : Tree} {all : List Entry}

/-- The numbered form of an outline that is placed and written is sound. -/
theorem sound_of_describes {node : Node} {entry : Entry}
    (describes : Outline.Describes all node entry) (placed : entry.outline.Placed source)
    {root : SyntaxNode} (lawful : root.Lawful source)
    (written : Outline.Written source root entry.parent entry.outline) : node.Sound source := by
  obtain ⟨piece, delimits⟩ := placed.delimits
  refine ⟨?_, ?_, ?_⟩
  · rw [describes.span]
    exact delimits.sound
  · intro tags found
    rw [describes.kind] at found
    have delimit := (placed.holds found).delimit
    rw [describes.span]
    exact ⟨delimit.frame, delimit.sound⟩
  · intro element found
    rw [describes.kind] at found
    exact written.attributes lawful found

theorem Records.children_within (records : tree.Records all) {id : Nat} {node : Node}
    (found : tree.node? id = some node) :
    ∀ child ∈ node.children,
      ∃ below, tree.node? child = some below ∧ below.span.Within node.span := by
  obtain ⟨entry, listed, describes⟩ := records.lists.exists_entry found
  have placed := records.placed entry (List.mem_of_getElem? listed)
  intro child member
  have listedChild := List.mem_map_of_mem (f := (all[·]?)) member
  rw [describes.children] at listedChild
  obtain ⟨outline, isChild, same⟩ := List.mem_map.1 listedChild
  obtain ⟨below, foundBelow, describesBelow⟩ := records.lists.exists_node same.symm
  refine ⟨below, foundBelow, ?_⟩
  rw [describesBelow.span, describes.span]
  exact placed.within outline isChild

theorem Records.within_parent (records : tree.Records all) {id : Nat} {node : Node}
    (found : tree.node? id = some node) :
    ∀ parent ∈ node.parent,
      ∃ above, tree.node? parent = some above ∧ node.span.Within above.span := by
  obtain ⟨entry, -, describes⟩ := records.lists.exists_entry found
  intro parent isParent
  obtain ⟨holder, listed, isChild⟩ := describes.under parent isParent
  obtain ⟨above, foundAbove, describesAbove⟩ := records.lists.exists_node listed
  refine ⟨above, foundAbove, ?_⟩
  rw [describes.span, describesAbove.span]
  exact (records.placed holder (List.mem_of_getElem? listed)).within entry.outline isChild

/-- The comments of a lawful tree are sound, one behind the other. -/
theorem comments_sound {root : SyntaxNode} (lawful : root.Lawful source) :
    (∀ comment ∈ (ofSyntax source root).comments, comment.span.Sound source)
      ∧ Span.InOrder 0 ((ofSyntax source root).comments.map (·.span)) (Text.bytes source) := by
  rw [comments_ofSyntax]
  constructor
  · intro comment member
    obtain ⟨part, isPart, rfl⟩ := List.mem_map.1 member
    exact (lawful.part (root.mem_comments part isPart).1).sound
  · rw [List.map_map]
    exact (SyntaxNode.inOrder_comments root lawful.stands).mono (Nat.zero_le _) lawful.sound.inside

/-- The tree of a lawful concrete tree is sound. -/
theorem sound_ofSyntax {root : SyntaxNode} (lawful : root.Lawful source) :
    (ofSyntax source root).Sound source := by
  have records := records_ofSyntax lawful
  have written := Outline.written_roots lawful
  refine ⟨?_, fun id node found => records.children_within found,
    fun id node found => records.within_parent found, (comments_sound lawful).1,
    (comments_sound lawful).2⟩
  intro id node found
  obtain ⟨entry, listed, describes⟩ := records.lists.exists_entry found
  have member := List.mem_of_getElem? listed
  have placed := records.placed entry member
  rw [source_ofSyntax] at placed
  exact sound_of_describes describes placed lawful (written entry member)

/-- The tree of an accepted source is sound. -/
theorem sound_ofSource [SyntaxParser] [LawfulSyntaxParser] {dialect : Dialect}
    (accepted : ofSource dialect source = .ok tree) : tree.Sound source := by
  obtain ⟨root, parsed, sound, rfl⟩ := ofSource_eq_ok_iff.1 accepted
  exact sound_ofSyntax (LawfulSyntaxParser.lawful parsed sound)

end Tree

end FragmentLint
