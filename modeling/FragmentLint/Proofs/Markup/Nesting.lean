import FragmentLint.Proofs.Markup.Soundness

/-!
Contract: which elements and fragments stand inside another one.

Elements and fragments are numbered in the order in which they begin, and one that begins in another
belongs to it. So what stands inside an element or fragment was found in one of its attributes or
between its tags. The proof follows the five functions that read markup off; it is about offsets
only. Main statements: `nested_roots`, `Written.place_of_belonging`.

Owns: what it means to be nested.
Does not own: what becomes of nested markup when a node is taken away.
-/

namespace FragmentLint

/-- Whether a span lies in an attribute of an element. -/
def NodeKind.HasInAttribute (kind : NodeKind) (span : Span) : Prop :=
  ∃ element given, kind.element? = some element ∧ given ∈ element.attributes
    ∧ span.Within given.span

/-- What was found in an outline: aside of it and in its children. -/
def Outline.belongings (outline : Outline) : List Entry :=
  entriesAll none outline.aside ++ entriesAll (some outline.kind) outline.children

/-- How an element or fragment stands to another one that is listed later: it begins in front of it,
and it ends in front of it too, unless the other one belongs to it. -/
def Entry.Precedes (first second : Entry) : Prop :=
  first.outline.kind.isTagged = true → second.outline.kind.isTagged = true →
    first.outline.span.start < second.outline.span.start
      ∧ (second ∈ first.outline.belongings
        ∨ first.outline.span.stop ≤ second.outline.span.start)

namespace Outline

/-- Whether the elements and fragments in outlines stand between two offsets, each of them in front
of or around those that are listed later. -/
structure Nested (start : Nat) (outlines : List Outline) (stop : Nat) : Prop where
  forward : start ≤ stop
  bounded : ∀ parent, ∀ entry ∈ entriesAll parent outlines, entry.outline.kind.isTagged = true →
    start ≤ entry.outline.span.start ∧ entry.outline.span.start < entry.outline.span.stop
      ∧ entry.outline.span.stop ≤ stop
  ordered : ∀ parent, (entriesAll parent outlines).Pairwise Entry.Precedes

theorem entriesAll_singleton (parent : Option NodeKind) (outline : Outline) :
    entriesAll parent [outline] = ⟨parent, outline⟩ :: outline.belongings := by
  cases outline with
  | node kind span aside children =>
    simp only [entriesAll, entries, List.append_nil]
    rfl

namespace Nested

variable {start middle stop : Nat}

theorem nil (forward : start ≤ stop) : Nested start [] stop := by
  refine ⟨forward, ?_, ?_⟩
  · intro parent entry member
    simp only [entriesAll, List.not_mem_nil] at member
  · intro parent
    simp only [entriesAll]
    exact .nil

theorem mono {outlines : List Outline} {start' stop' : Nat} (nested : Nested start outlines stop)
    (earlier : start' ≤ start) (later : stop ≤ stop') : Nested start' outlines stop' := by
  have forward := nested.forward
  refine ⟨by omega, ?_, nested.ordered⟩
  intro parent entry member tagged
  obtain ⟨begins, size, ends⟩ := nested.bounded parent entry member tagged
  exact ⟨Nat.le_trans earlier begins, size, Nat.le_trans ends later⟩

/-- What ends in front of an offset precedes what begins behind it. -/
theorem pairwise_append {first second : List Entry}
    (ordered : first.Pairwise Entry.Precedes) (others : second.Pairwise Entry.Precedes)
    (ends : ∀ entry ∈ first, entry.outline.kind.isTagged = true →
      entry.outline.span.start < entry.outline.span.stop ∧ entry.outline.span.stop ≤ middle)
    (begins : ∀ entry ∈ second, entry.outline.kind.isTagged = true →
      middle ≤ entry.outline.span.start) :
    (first ++ second).Pairwise Entry.Precedes := by
  refine List.pairwise_append.2 ⟨ordered, others, ?_⟩
  intro left inFirst right inSecond leftTagged rightTagged
  obtain ⟨size, leftEnds⟩ := ends left inFirst leftTagged
  have rightBegins := begins right inSecond rightTagged
  exact ⟨by omega, Or.inr (by omega)⟩

theorem append {left right : List Outline} (first : Nested start left middle)
    (second : Nested middle right stop) : Nested start (left ++ right) stop := by
  have toMiddle := first.forward
  have toStop := second.forward
  refine ⟨by omega, ?_, ?_⟩
  · intro parent entry member tagged
    rw [entriesAll_append] at member
    rcases List.mem_append.1 member with inLeft | inRight
    · obtain ⟨begins, size, ends⟩ := first.bounded parent entry inLeft tagged
      exact ⟨begins, size, by omega⟩
    · obtain ⟨begins, size, ends⟩ := second.bounded parent entry inRight tagged
      exact ⟨by omega, size, ends⟩
  · intro parent
    rw [entriesAll_append]
    exact pairwise_append (first.ordered parent) (second.ordered parent)
      (fun entry member tagged => (first.bounded parent entry member tagged).2)
      fun entry member tagged => (second.bounded parent entry member tagged).1

/-- The belongings of an outline are nested if what was found aside of it is, and so are its
children, behind that. -/
theorem belongings {outline : Outline} (aside : Nested start outline.aside middle)
    (children : Nested middle outline.children stop) :
    (∀ entry ∈ outline.belongings, entry.outline.kind.isTagged = true →
        start ≤ entry.outline.span.start ∧ entry.outline.span.start < entry.outline.span.stop
          ∧ entry.outline.span.stop ≤ stop)
      ∧ outline.belongings.Pairwise Entry.Precedes := by
  have toMiddle := aside.forward
  have toStop := children.forward
  refine ⟨?_, ?_⟩
  · intro entry member tagged
    rcases List.mem_append.1 member with inAside | inChildren
    · obtain ⟨begins, size, ends⟩ := aside.bounded _ entry inAside tagged
      exact ⟨begins, size, by omega⟩
    · obtain ⟨begins, size, ends⟩ := children.bounded _ entry inChildren tagged
      exact ⟨by omega, size, ends⟩
  · exact pairwise_append (aside.ordered _) (children.ordered _)
      (fun entry member tagged => (aside.bounded _ entry member tagged).2)
      fun entry member tagged => (children.bounded _ entry member tagged).1

/-- Something that is no element and no fragment does not count itself. -/
theorem untagged {outline : Outline} (untagged : outline.kind.isTagged = false)
    (aside : Nested start outline.aside middle) (children : Nested middle outline.children stop) :
    Nested start [outline] stop := by
  obtain ⟨bounded, ordered⟩ := aside.belongings children
  refine ⟨Nat.le_trans aside.forward children.forward, ?_, ?_⟩
  · intro parent entry member tagged
    rw [entriesAll_singleton] at member
    rcases List.mem_cons.1 member with rfl | belongs
    · rw [untagged] at tagged
      cases tagged
    · exact bounded entry belongs tagged
  · intro parent
    rw [entriesAll_singleton]
    refine List.pairwise_cons.2 ⟨?_, ordered⟩
    intro entry belongs tagged
    rw [untagged] at tagged
    cases tagged

/-- An element or fragment stands around what belongs to it. -/
theorem singleton {outline : Outline} (aside : Nested start outline.aside middle)
    (children : Nested middle outline.children stop) (behind : outline.span.start < start)
    (inFront : stop ≤ outline.span.stop) :
    Nested outline.span.start [outline] outline.span.stop := by
  have toMiddle := aside.forward
  have toStop := children.forward
  obtain ⟨bounded, ordered⟩ := aside.belongings children
  refine ⟨by omega, ?_, ?_⟩
  · intro parent entry member tagged
    rw [entriesAll_singleton] at member
    rcases List.mem_cons.1 member with rfl | belongs
    · refine ⟨Nat.le_refl _, ?_, Nat.le_refl _⟩
      show outline.span.start < outline.span.stop
      omega
    · obtain ⟨begins, size, ends⟩ := bounded entry belongs tagged
      exact ⟨by omega, size, by omega⟩
  · intro parent
    rw [entriesAll_singleton]
    refine List.pairwise_cons.2 ⟨?_, ordered⟩
    intro entry belongs _ tagged
    obtain ⟨begins, -, -⟩ := bounded entry belongs tagged
    refine ⟨?_, Or.inl belongs⟩
    show outline.span.start < entry.outline.span.start
    omega

end Nested

/-! ## Pieces of markup -/

open SyntaxNode Lowering

variable {source : Text} {ancestors : List SyntaxNode} {node tag : SyntaxNode}

theorem nested_ofText {start stop : Nat} (ordered : start ≤ stop) :
    Nested start (ofText source start stop) stop := by
  unfold ofText
  split
  · exact .untagged rfl (.nil ordered) (.nil (Nat.le_refl _))
  · exact .nil ordered

/-- Attributes stand between the delimiters of their tag. -/
theorem attributes_enclosed {opening closing : Text} (lawful : tag.Lawful source)
    (enclosed : tag.EnclosedBy source opening closing) :
    Span.InOrder (tag.span.start + Text.bytes opening) (tag.attributes.map (·.span))
      (tag.span.stop - Text.bytes closing) := by
  obtain ⟨⟨inside, written⟩, within⟩ := enclosed
  have stop := Text.stop_of_slice? written
  simp only [Text.bytes_append] at stop
  refine (attributes_inOrder lawful).1.narrow (by omega) fun span member => ?_
  obtain ⟨given, isGiven, rfl⟩ := List.mem_map.1 member
  obtain ⟨begins, ends⟩ := within given (List.mem_filter.1 isGiven).1
  exact ⟨begins, by omega⟩

theorem aside_ofTags_nested {opening : SyntaxNode} {tags : Tags} {span : Span}
    {aside children : List Outline} {start stop : Nat} (nested : Nested start aside stop) :
    Nested start (ofTags source opening tags span aside children).aside stop := by
  unfold ofTags
  split
  · exact nested
  · -- A fragment has no attributes, so nothing was found in them.
    exact .nil nested.forward

theorem nested_under {context : Context} {found : Outline} {start stop : Nat}
    (untagged : context.1.isTagged = false) (nested : Nested start [found] stop) :
    Nested start [under context found] stop :=
  .untagged untagged (.nil (Nat.le_refl _)) nested

/-- The bounds of what was found in a node with two tags: its attributes, and what stands between
the tags. -/
theorem bounds_of_pair {opening closing : SyntaxNode} {content : List SyntaxNode}
    (pair : node.Pair opening closing content) (lawful : node.Lawful source) :
    Span.InOrder (node.span.start + 1) (opening.attributes.map (·.span)) opening.span.stop
      ∧ closing.span.start + 3 ≤ node.span.stop := by
  have lawfulOpening := lawful.child pair.mem_opening
  have enclosed := attributes_enclosed lawfulOpening
    (lawfulOpening.isComplete.opening pair.kindOpening)
  obtain ⟨⟨inside, written⟩, -⟩ :=
    (lawful.child pair.mem_closing).isComplete.closing pair.kindClosing
  have sizes : Text.bytes ['<'] = 1 ∧ Text.bytes ['<', '/'] = 2 ∧ Text.bytes ['>'] = 1 := by decide
  have stop := Text.stop_of_slice? written
  rw [pair.first, sizes.1] at enclosed
  simp only [Text.bytes_append, sizes, pair.last] at stop
  exact ⟨enclosed.mono (Nat.le_refl _) (Nat.sub_le _ _), by omega⟩

theorem bounds_of_selfClosing (lawful : node.Lawful source) (single : node.kind = .jsxSelfClosing) :
    Span.InOrder (node.span.start + 1) (node.attributes.map (·.span)) (node.span.stop - 2)
      ∧ node.span.start + 3 ≤ node.span.stop := by
  have enclosedBy := lawful.isComplete.selfClosing single
  have enclosed := attributes_enclosed lawful enclosedBy
  obtain ⟨⟨inside, written⟩, -⟩ := enclosedBy
  have sizes : Text.bytes ['<'] = 1 ∧ Text.bytes ['/', '>'] = 2 := by decide
  have stop := Text.stop_of_slice? written
  rw [sizes.1, sizes.2] at enclosed
  simp only [Text.bytes_append, sizes] at stop
  exact ⟨enclosed, by omega⟩

/-- Markup between two tags is nested if what was found in its attributes is, and what stands
between the tags. -/
theorem nested_ofTags {opening closing : SyntaxNode} {content : List SyntaxNode}
    (pair : node.Pair opening closing content) (lawful : node.Lawful source) {tags : Tags}
    {aside children : List Outline}
    (nestedAside : Nested (node.span.start + 1) aside opening.span.stop)
    (nestedChildren : Nested opening.span.stop children closing.span.start) :
    Nested node.span.start [ofTags source opening tags node.span aside children]
      node.span.stop := by
  have size := (bounds_of_pair pair lawful).2
  have whole := @Nested.singleton _ _ _ (ofTags source opening tags node.span aside children)
    (aside_ofTags_nested nestedAside) (by rw [children_ofTags]; exact nestedChildren)
    (by rw [span_ofTags]; exact Nat.lt_succ_self _) (by rw [span_ofTags]; omega)
  rw [span_ofTags] at whole
  exact whole

/-- What is read off an expression is nested if the markup in it is. -/
theorem nested_ofExpression
    (markup : node.isMarkup = true →
      Nested node.span.start [ofMarkup source ancestors node] node.span.stop)
    (inner : Nested node.span.start (roots source ancestors node) node.span.stop) :
    Nested node.span.start [ofExpression source ancestors node] node.span.stop := by
  unfold ofExpression
  split
  · exact markup ‹_›
  · exact .untagged rfl inner (.nil (Nat.le_refl _))

/-- What is read off a lawful concrete tree is nested. -/
theorem nesting (source : Text) :
    (∀ ancestors node, node.Lawful source →
      Nested node.span.start (roots source ancestors node) node.span.stop)
    ∧ (∀ ancestors nodes, (∀ node ∈ nodes, node.Lawful source) → ∀ start stop,
      Span.InOrder start (nodes.map (·.span)) stop →
      Nested start (rootsIn source ancestors nodes) stop)
    ∧ (∀ ancestors node, node.Lawful source → node.isMarkup = true →
      Nested node.span.start [ofMarkup source ancestors node] node.span.stop)
    ∧ (∀ ancestors start stop structural,
      (∀ child ∈ structural, child.Lawful source ∧ child.isStructural = true) →
      Span.InOrder start (structural.map (·.span)) stop →
      Nested start (childrenIn source ancestors start stop structural) stop)
    ∧ ∀ ancestors node, node.Lawful source →
      Nested node.span.start [ofBraces source ancestors node] node.span.stop := by
  -- The cases are those of `roots`, `rootsIn`, `ofMarkup`, `childrenIn` and `ofBraces`, in turn.
  apply roots.mutual_induct source
  case case1 =>
    intro ancestors node markup nested lawful
    rw [roots_of_isMarkup markup]
    exact nested_under (isTagged_of_isContext (isContext_contextOf ancestors))
      (nested lawful markup)
  case case2 =>
    intro ancestors node other nested lawful
    rw [roots_of_not_isMarkup other]
    exact nested (fun child member => lawful.child (mem_children_of_mem_namedChildren member)) _ _
      (lawful.stands.childrenInOrder.sublist (List.filter_sublist.map _))
  case case3 =>
    intro ancestors _ start stop inOrder
    rw [rootsIn_nil]
    exact .nil inOrder
  case case4 =>
    intro ancestors first rest own others lawful start stop inOrder
    obtain ⟨behind, -, inOrderRest⟩ := inOrder
    rw [rootsIn_cons]
    exact ((own (lawful first List.mem_cons_self)).mono behind (Nat.le_refl _)).append
      (others (fun node member => lawful node (List.mem_cons_of_mem _ member)) _ _ inOrderRest)
  case case5 =>
    intro ancestors node single nested lawful _
    obtain ⟨inOrder, size⟩ := bounds_of_selfClosing lawful (by simpa using single)
    have aside := nested (fun given member => lawful.child (mem_children_of_mem_attributes member))
      _ _ inOrder
    rw [ofMarkup_of_selfClosing single]
    exact @Nested.singleton _ _ _ (.node _ node.span _ _) aside (.nil (Nat.le_refl _))
      (Nat.lt_succ_self _) (Nat.sub_le _ _)
  case case6 =>
    intro ancestors node paired opening closing opens closes tags aside children lawful markup
    obtain ⟨content, pair⟩ := lawful.exists_content markup paired opens closes
    have lawfulOpening := lawful.child pair.mem_opening
    rw [ofMarkup_of_tags paired opens closes]
    refine nested_ofTags pair lawful (aside (fun given member => ?_) _ _
      (bounds_of_pair pair lawful).1) (children (fun child member => ?_)
        (pair.structural_inOrder lawful.stands))
    · exact lawfulOpening.child (mem_children_of_mem_attributes member)
    · exact ⟨lawful.child (mem_children_of_mem_structuralIn member),
        structural_of_mem_structuralIn member⟩
  case case7 =>
    intro ancestors node paired missing lawful markup
    obtain ⟨opening, closing, content, pair⟩ := lawful.exists_pair markup paired
    exact (missing opening closing pair.opens pair.closes).elim
  case case8 =>
    intro ancestors start stop _ inOrder
    rw [childrenIn_nil]
    exact nested_ofText inOrder
  case case9 =>
    intro ancestors start stop child rest braces markup others lawful inOrder
    obtain ⟨lawfulChild, structural⟩ := lawful child List.mem_cons_self
    obtain ⟨behind, -, inOrderRest⟩ := inOrder
    have own : Nested child.span.start [ofChild source ancestors child] child.span.stop := by
      unfold ofChild
      split
      · exact braces lawfulChild
      · exact markup lawfulChild (isMarkup_of_isStructural structural ‹_›)
    rw [childrenIn_cons]
    exact (nested_ofText behind).append (own.append
      (others (fun node member => lawful node (List.mem_cons_of_mem _ member)) inOrderRest))
  case case10 =>
    intro ancestors node empty lawful
    rw [ofBraces_of_none empty]
    have ordered := lawful.sound.ordered
    exact .untagged rfl (.nil (Nat.le_refl _))
      (.untagged rfl (.nil (Nat.le_refl _)) (.nil ordered))
  case case11 =>
    intro ancestors node expression found inner markup nested lawful
    have isChild := mem_of_expression? found
    have inNode := mem_parts_trans (unparenthesize_mem_parts (node :: ancestors) expression)
      (mem_parts_of_mem_children isChild)
    have lawfulInner := lawful.part inNode
    obtain ⟨begins, ends⟩ := lawful.stands.within inNode
    have held := nested_ofExpression (markup lawfulInner) (nested lawfulInner)
    rw [ofBraces_of_some found]
    exact .untagged rfl (.nil (Nat.le_refl _)) (held.mono begins ends)

/-- The markup of a source is nested. -/
theorem nested_roots {root : SyntaxNode} (lawful : root.Lawful source) :
    Nested root.span.start (roots source [] root) root.span.stop :=
  (nesting source).1 [] root lawful

/-! ## What was found in an element or fragment -/

theorem exists_of_mem_entriesAll_rootsIn {parent : Option NodeKind} {nodes : List SyntaxNode}
    {entry : Entry} (member : entry ∈ entriesAll parent (rootsIn source ancestors nodes)) :
    ∃ part ∈ nodes, entry ∈ entriesAll parent (roots source ancestors part) := by
  induction nodes with
  | nil => simp only [rootsIn_nil, entriesAll, List.not_mem_nil] at member
  | cons first rest inductionHypothesis =>
    rw [rootsIn_cons, entriesAll_append] at member
    rcases List.mem_append.1 member with inFirst | inRest
    · exact ⟨first, List.mem_cons_self, inFirst⟩
    · obtain ⟨part, isPart, inPart⟩ := inductionHypothesis inRest
      exact ⟨part, List.mem_cons_of_mem _ isPart, inPart⟩

theorem exists_elementOf (lawful : tag.Lawful source) (tags : Tags) :
    ∃ element, (elementOf source tag tags).element? = some element := by
  obtain ⟨name, attributes, kindEq, -⟩ :=
    lowerElement_eq_ok_iff.1 (lowerElement_eq lawful.stands tags)
  exact ⟨_, by rw [kindEq]; rfl⟩

/-- The markup in the attributes of an element lies in them. -/
theorem hasInAttribute_of_mem_aside (lawful : tag.Lawful source) (tags : Tags) {entry : Entry}
    {parent : Option NodeKind}
    (member : entry ∈ entriesAll parent (rootsIn source ancestors tag.attributes))
    (tagged : entry.outline.kind.isTagged = true) :
    (elementOf source tag tags).HasInAttribute entry.outline.span := by
  obtain ⟨given, isGiven, inGiven⟩ := exists_of_mem_entriesAll_rootsIn member
  obtain ⟨begins, -, ends⟩ := ((nesting source).1 ancestors given
    (lawful.child (mem_children_of_mem_attributes isGiven))).bounded parent entry inGiven tagged
  obtain ⟨element, isElement⟩ := exists_elementOf lawful tags
  have spanMember := List.mem_map_of_mem (f := (·.span)) isGiven
  rw [← (spans_of_elementOf lawful isElement).2] at spanMember
  obtain ⟨lowered, isLowered, spanEq⟩ := List.mem_map.1 spanMember
  refine ⟨element, lowered, isElement, isLowered, ?_⟩
  rw [spanEq]
  exact ⟨begins, ends⟩

variable {root : SyntaxNode} {outline : Outline} {tags : Tags}

/-- What stands between the tags of an element or fragment. -/
theorem within_of_mem_children {opening closing : SyntaxNode} {content : List SyntaxNode}
    (pair : node.Pair opening closing content) (lawful : node.Lawful source)
    {parent : Option NodeKind} {entry : Entry}
    (member : entry ∈ entriesAll parent (childrenIn source (node :: ancestors) opening.span.stop
      closing.span.start (between content)))
    (tagged : entry.outline.kind.isTagged = true) :
    entry.outline.span.Within ⟨opening.span.stop, closing.span.start⟩ := by
  have structural : ∀ child ∈ between content,
      child.Lawful source ∧ child.isStructural = true := by
    intro child isChild
    obtain ⟨isContent, kept⟩ := List.mem_filter.1 isChild
    exact ⟨lawful.child (pair.mem_content isContent), (Bool.and_eq_true _ _ ▸ kept).2⟩
  have inOrder := (pair.inOrder lawful.stands).sublist
    ((List.filter_sublist (p := fun child => child.isNamed && child.isStructural)).map
      SyntaxNode.span)
  have nested := (nesting source).2.2.2.1 (node :: ancestors) _ _ _ structural inOrder
  obtain ⟨begins, -, ends⟩ := nested.bounded parent entry member tagged
  exact ⟨begins, ends⟩

/-- An element or fragment in another one was found in an attribute of that or between its tags. -/
theorem Written.place_of_belonging {parent : Option NodeKind} (lawful : root.Lawful source)
    (written : Written source root parent outline) (tagsEq : outline.kind.tags? = some tags)
    {entry : Entry} (belongs : entry ∈ outline.belongings)
    (tagged : entry.outline.kind.isTagged = true) :
    outline.kind.HasInAttribute entry.outline.span ∨ entry.outline.span.Within tags.inner := by
  obtain ⟨ancestors, part, inRoot, markup, rfl⟩ :=
    written.exists_markup (NodeKind.isTagged_of_tags? tagsEq)
  have lawfulPart := lawful.part inRoot
  rcases ofMarkup_cases ancestors lawfulPart markup with
    ⟨-, outlineEq⟩ | ⟨opening, closing, content, pair, outlineEq⟩
  · rw [outlineEq] at belongs ⊢
    rcases List.mem_append.1 belongs with inAside | inChildren
    · exact Or.inl (hasInAttribute_of_mem_aside lawfulPart _ inAside tagged)
    · simp only [Outline.children, entriesAll, List.not_mem_nil] at inChildren
  · rw [outlineEq] at tagsEq belongs ⊢
    obtain rfl := Option.some.inj (tags?_ofTags.symm.trans tagsEq)
    rcases List.mem_append.1 belongs with inAside | inChildren
    · -- A fragment has no attributes, so the tag has a name.
      unfold ofTags at inAside ⊢
      split at inAside
      · rw [if_pos ‹_›]
        exact Or.inl (hasInAttribute_of_mem_aside (lawfulPart.child pair.mem_opening) _ inAside
          tagged)
      · simp only [Outline.aside, entriesAll, List.not_mem_nil] at inAside
    · rw [children_ofTags] at inChildren
      exact Or.inr (within_of_mem_children pair lawfulPart inChildren tagged)

/-- An element or fragment in another one stands between the tags of that if and only if it does not
stand in an attribute. -/
theorem Written.within_inner_iff {parent : Option NodeKind} (lawful : root.Lawful source)
    (written : Written source root parent outline) (tagsEq : outline.kind.tags? = some tags)
    {entry : Entry} (belongs : entry ∈ outline.belongings)
    (tagged : entry.outline.kind.isTagged = true)
    (visible : entry.outline.span.start < entry.outline.span.stop) :
    entry.outline.span.Within tags.inner ↔ ¬ outline.kind.HasInAttribute entry.outline.span := by
  constructor
  · rintro ⟨begins, -⟩ ⟨element, given, isElement, isGiven, -, ends⟩
    have inOrder := (written.attributes lawful isElement).1
    obtain ⟨-, inOpening⟩ := inOrder.within given.span (List.mem_map_of_mem isGiven)
    obtain rfl : element.tags = tags := by
      cases kindEq : outline.kind with
      | element found =>
        rw [kindEq] at isElement tagsEq
        cases isElement
        exact Option.some.inj tagsEq
      | _ =>
        rw [kindEq] at isElement
        cases isElement
    rw [Tags.start_inner] at begins
    omega
  · exact (written.place_of_belonging lawful tagsEq belongs tagged).resolve_left

end Outline

section Parser

variable [SyntaxParser] [LawfulSyntaxParser]

/-- The tree of an accepted source records markup that is written in its concrete tree and nested.
-/
theorem Tree.exists_nested {dialect : Dialect} {source : Text} {tree : Tree}
    (accepted : Tree.ofSource dialect source = .ok tree) :
    ∃ root all, root.Lawful source ∧ tree.Records all
      ∧ (∀ entry ∈ all, Outline.Written source root entry.parent entry.outline)
      ∧ all.Pairwise Entry.Precedes := by
  obtain ⟨root, parsed, sound, rfl⟩ := ofSource_eq_ok_iff.1 accepted
  have lawful := LawfulSyntaxParser.lawful parsed sound
  exact ⟨root, _, lawful, records_ofSyntax lawful, Outline.written_roots lawful,
    (Outline.nested_roots lawful).ordered none⟩

end Parser

/-- Of two elements or fragments that are numbered apart, the one that stands within the other
belongs to it. -/
theorem mem_belongings_of_within {all : List Entry} (ordered : all.Pairwise Entry.Precedes)
    {id other : Nat} {entry below : Entry} (listed : all[id]? = some entry)
    (listedBelow : all[other]? = some below) (apart : other ≠ id)
    (tagged : entry.outline.kind.isTagged = true)
    (taggedBelow : below.outline.kind.isTagged = true)
    (visible : below.outline.span.start < below.outline.span.stop)
    (within : below.outline.span.Within entry.outline.span) :
    below ∈ entry.outline.belongings := by
  obtain ⟨begins, ends⟩ := within
  obtain ⟨inside, rfl⟩ := List.getElem?_eq_some_iff.1 listed
  obtain ⟨insideBelow, rfl⟩ := List.getElem?_eq_some_iff.1 listedBelow
  have precedes := List.pairwise_iff_getElem.1 ordered
  rcases Nat.lt_or_gt_of_ne apart with earlier | later
  · obtain ⟨first, -⟩ := precedes other id insideBelow inside earlier taggedBelow tagged
    omega
  · obtain ⟨-, belongs | behind⟩ := precedes id other inside insideBelow later tagged taggedBelow
    · exact belongs
    · omega

end FragmentLint
