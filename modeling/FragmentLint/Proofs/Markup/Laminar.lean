import FragmentLint.Proofs.Markup.Nesting

/-!
Contract: the elements and fragments of a source keep apart, or one stands strictly within the
other.

No two of them begin at the same place, wherever they were written: children, attribute values and
the bodies of functions are alike in this. It follows from the order in which markup is read off
(`Entry.Precedes`), which does not look at the roots that nodes were hung under. Main statements:
`laminar_of_ne`, and the order in which elements are listed (`elements_pairwise`).

Does not own: what follows for the fixes of a check.
-/

namespace FragmentLint

namespace Span

/-- Whether a span lies within another one and reaches neither of its ends. -/
def StrictlyWithin (inner outer : Span) : Prop :=
  outer.start < inner.start ∧ inner.stop < outer.stop

/-- Whether two spans begin at different places and share no byte unless one of them lies strictly
within the other. -/
def Laminar (left right : Span) : Prop :=
  left.start ≠ right.start
    ∧ (left.stop ≤ right.start ∨ right.stop ≤ left.start
      ∨ left.StrictlyWithin right ∨ right.StrictlyWithin left)

theorem Laminar.symm {left right : Span} (laminar : left.Laminar right) : right.Laminar left := by
  unfold Laminar at laminar ⊢
  obtain ⟨apart, places⟩ := laminar
  refine ⟨apart.symm, ?_⟩
  rcases places with behind | inFront | within | around
  · exact Or.inr (Or.inl behind)
  · exact Or.inl inFront
  · exact Or.inr (Or.inr (Or.inr within))
  · exact Or.inr (Or.inr (Or.inl around))

end Span

namespace Outline

open SyntaxNode

variable {source : Text} {root : SyntaxNode} {outline : Outline}

/-- What was found in the attributes of a tag that closes itself ends in front of its bracket. -/
theorem stop_lt_of_mem_aside {tag : SyntaxNode} {ancestors : List SyntaxNode}
    {parent : Option NodeKind} {start stop : Nat} (lawful : tag.Lawful source)
    (inOrder : Span.InOrder start (tag.attributes.map (·.span)) stop) {entry : Entry}
    (member : entry ∈ entriesAll parent (rootsIn source ancestors tag.attributes))
    (tagged : entry.outline.kind.isTagged = true) : entry.outline.span.stop ≤ stop :=
  (((nesting source).2.1 ancestors tag.attributes
    (fun _ isGiven => lawful.child (mem_children_of_mem_attributes isGiven)) start stop
    inOrder).bounded parent entry member tagged).2.2

/-- What stands in an element or fragment ends in front of it, since a bracket is still to come. -/
theorem Written.stop_lt_of_belonging {parent : Option NodeKind} (lawful : root.Lawful source)
    (written : Written source root parent outline) (tagged : outline.kind.isTagged = true)
    {entry : Entry} (belongs : entry ∈ outline.belongings)
    (taggedEntry : entry.outline.kind.isTagged = true) :
    entry.outline.span.stop < outline.span.stop := by
  obtain ⟨ancestors, part, inRoot, markup, rfl⟩ := written.exists_markup tagged
  have lawfulPart := lawful.part inRoot
  rcases ofMarkup_cases ancestors lawfulPart markup with
    ⟨single, outlineEq⟩ | ⟨opening, closing, content, pair, outlineEq⟩
  · obtain ⟨inOrder, size⟩ := bounds_of_selfClosing lawfulPart single
    rw [outlineEq] at belongs ⊢
    show entry.outline.span.stop < part.span.stop
    rcases List.mem_append.1 belongs with inAside | inChildren
    · have ends := stop_lt_of_mem_aside lawfulPart inOrder inAside taggedEntry
      omega
    · simp only [Outline.children, entriesAll, List.not_mem_nil] at inChildren
  · obtain ⟨inOrder, size⟩ := bounds_of_pair pair lawfulPart
    have between := (pair.inOrder lawfulPart.stands).start_le_stop
    rw [outlineEq] at belongs ⊢
    rw [span_ofTags]
    rcases List.mem_append.1 belongs with inAside | inChildren
    · -- A fragment has no attributes, so the tag has a name.
      unfold ofTags at inAside
      split at inAside
      · have ends := stop_lt_of_mem_aside (lawfulPart.child pair.mem_opening) inOrder inAside
          taggedEntry
        omega
      · simp only [Outline.aside, entriesAll, List.not_mem_nil] at inAside
    · rw [children_ofTags] at inChildren
      obtain ⟨-, ends⟩ := within_of_mem_children pair lawfulPart inChildren taggedEntry
      simp only at ends
      omega

end Outline

/-- Of two elements or fragments the one that is listed first begins first. It stands around the
other one or ends in front of it. -/
theorem Entry.Precedes.laminar {source : Text} {root : SyntaxNode} {first second : Entry}
    (precedes : first.Precedes second) (lawful : root.Lawful source)
    (written : Outline.Written source root first.parent first.outline)
    (tagged : first.outline.kind.isTagged = true)
    (taggedSecond : second.outline.kind.isTagged = true) :
    first.outline.span.Laminar second.outline.span := by
  obtain ⟨begins, place⟩ := precedes tagged taggedSecond
  refine ⟨Nat.ne_of_lt begins, ?_⟩
  rcases place with belongs | behind
  · have ends := written.stop_lt_of_belonging lawful tagged belongs taggedSecond
    exact Or.inr (Or.inr (Or.inr ⟨begins, ends⟩))
  · exact Or.inl behind

namespace Tree

variable {dialect : Dialect} {source : Text} {tree : Tree}

/-! ## The list of elements -/

/-- Listed are all elements and fragments, and nothing else. -/
theorem mem_elements_iff {id : Nat} :
    id ∈ tree.elements ↔ ∃ node, tree.node? id = some node ∧ node.kind.isTagged = true := by
  unfold elements
  rw [(StableSort.perm _ _).mem_iff, List.mem_filter, List.mem_range, Option.any_eq_true]
  constructor
  · exact And.right
  · rintro ⟨node, known, tagged⟩
    refine ⟨?_, node, known, tagged⟩
    by_contra outside
    have unknown : tree.node? id = none := Array.getElem?_eq_none (Nat.le_of_not_lt outside)
    rw [unknown] at known
    cases known

theorem nodup_elements (tree : Tree) : tree.elements.Nodup := by
  unfold elements
  rw [(StableSort.perm _ _).nodup_iff]
  exact List.nodup_range.filter _

section Parser

variable [SyntaxParser] [LawfulSyntaxParser]

/-- Two elements or fragments of an accepted source keep apart, or one stands strictly within the
other. -/
theorem laminar_of_ne (accepted : ofSource dialect source = .ok tree) {id other : Nat}
    {node below : Node} (known : tree.node? id = some node) (knownToo : tree.node? other = some below)
    (tagged : node.kind.isTagged = true) (taggedToo : below.kind.isTagged = true)
    (apart : id ≠ other) : node.span.Laminar below.span := by
  obtain ⟨root, all, lawful, records, written, ordered⟩ := exists_nested accepted
  obtain ⟨entry, listed, describes⟩ := records.lists.exists_entry known
  obtain ⟨entryToo, listedToo, describesToo⟩ := records.lists.exists_entry knownToo
  rw [describes.span, describesToo.span]
  rw [describes.kind] at tagged
  rw [describesToo.kind] at taggedToo
  obtain ⟨inside, rfl⟩ := List.getElem?_eq_some_iff.1 listed
  obtain ⟨insideToo, rfl⟩ := List.getElem?_eq_some_iff.1 listedToo
  have precedes := List.pairwise_iff_getElem.1 ordered
  rcases Nat.lt_or_gt_of_ne apart with earlier | later
  · apply (precedes id other inside insideToo earlier).laminar lawful
      (written _ (List.getElem_mem inside))
    · exact tagged
    · exact taggedToo
  · apply Span.Laminar.symm
    apply (precedes other id insideToo inside later).laminar lawful
      (written _ (List.getElem_mem insideToo))
    · exact taggedToo
    · exact tagged

/-- An element or fragment takes up room. -/
theorem start_lt_stop_of_isTagged (accepted : ofSource dialect source = .ok tree) {id : Nat}
    {node : Node} (known : tree.node? id = some node) (tagged : node.kind.isTagged = true) :
    node.span.start < node.span.stop := by
  obtain ⟨all, records⟩ := exists_records accepted
  obtain ⟨entry, listed, describes⟩ := records.lists.exists_entry known
  rw [describes.kind] at tagged
  rw [describes.span]
  have placed := records.placed entry (List.mem_of_getElem? listed)
  exact placed.start_lt_stop (Outline.isContent_of_isTagged tagged)

/-- In the list of elements of an accepted source every one begins behind the one before it. -/
theorem elements_pairwise (accepted : ofSource dialect source = .ok tree) :
    tree.elements.Pairwise fun first second => tree.startOf first < tree.startOf second := by
  have sorted : tree.elements.Pairwise fun first second =>
      decide (tree.startOf first ≤ tree.startOf second) = true := by
    apply StableSort.ordered
    · intro first second
      simp only [decide_eq_true_eq]
      omega
    · intro first second third
      simp only [decide_eq_true_eq]
      omega
  have apart : tree.elements.Pairwise (· ≠ ·) := nodup_elements tree
  refine (sorted.and apart).imp_of_mem ?_
  rintro first second inList inListToo ⟨ordered, different⟩
  obtain ⟨node, known, tagged⟩ := mem_elements_iff.1 inList
  obtain ⟨other, knownToo, taggedToo⟩ := mem_elements_iff.1 inListToo
  have begins := (laminar_of_ne accepted known knownToo tagged taggedToo different).1
  simp only [startOf, known, knownToo, Option.map_some, Option.getD_some, decide_eq_true_eq]
    at ordered ⊢
  omega

end Parser

end Tree

end FragmentLint
