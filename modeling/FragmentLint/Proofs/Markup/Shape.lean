import FragmentLint.Proofs.Markup.Children

/-!
Contract: which nodes of a tree hold which.

A root is a construct or a pair of braces around one element or fragment. Between tags there are
elements, fragments, texts and braces; a pair of braces has one child; nothing else has any. Main
statement: `shaped_ofSource`.

Owns: what it means for a tree to have this shape.
Does not own: where the nodes stand in the source.
-/

namespace FragmentLint

/-- Whether a node may be what stands in a pair of braces. -/
def NodeKind.isExpression : NodeKind → Bool
  | element _ => true
  | fragment _ => true
  | empty => true
  | other _ => true
  | _ => false

theorem NodeKind.isExpression_of_isTagged {kind : NodeKind} (tagged : kind.isTagged = true) :
    kind.isExpression = true := by
  cases kind with
  | element => rfl
  | fragment => rfl
  | _ => cases tagged

/-! ## Outlines -/

namespace Outline

variable {source : Text} {outline : Outline}

theorem IsExpression.isExpression (expression : IsExpression outline) :
    outline.kind.isExpression = true := by
  rcases expression with tagged | ⟨-, isEmpty | ⟨construct, isOther⟩⟩
  · exact NodeKind.isExpression_of_isTagged tagged
  · rw [isEmpty]
    rfl
  · rw [isOther]
    rfl

/-- A placed pair of braces has one child. -/
theorem Placed.children_of_container (placed : Placed source outline)
    (isContainer : outline.kind = .container) :
    ∃ only, outline.children = [only] ∧ only.kind.isExpression = true := by
  cases placed with
  | text => cases isContainer
  | empty => cases isContainer
  | other => cases isContainer
  | container _ _ expression => exact ⟨_, rfl, expression.isExpression⟩
  | tagged tagsEq =>
    obtain rfl := isContainer
    cases tagsEq
  | root _ _ _ tagged => exact ⟨_, rfl, NodeKind.isExpression_of_isTagged tagged⟩

/-- Texts, and the nothing in empty braces, hold nothing. -/
theorem Placed.children_of_leaf (placed : Placed source outline)
    (isLeaf : outline.kind.text?.isSome = true ∨ outline.kind = .empty) :
    outline.children = [] := by
  cases placed with
  | text => rfl
  | empty => rfl
  | other => rfl
  | container => rcases isLeaf with isText | isEmpty <;> contradiction
  | @tagged kind _ _ _ _ tagsEq =>
    cases kind with
    | element => rcases isLeaf with isText | isEmpty <;> contradiction
    | fragment => rcases isLeaf with isText | isEmpty <;> contradiction
    | _ => cases tagsEq
  | @root kind _ _ _ context =>
    cases kind with
    | container => rcases isLeaf with isText | isEmpty <;> contradiction
    | other => rcases isLeaf with isText | isEmpty <;> contradiction
    | _ => cases context

/-- There is no room for children in a tag that closes itself. -/
theorem Placed.children_of_isSelfClosing (placed : Placed source outline) {tags : Tags}
    (tagsEq : outline.kind.tags? = some tags) (selfClosing : tags.isSelfClosing = true) :
    outline.children = [] := by
  have holds := placed.holds tagsEq
  have tile := holds.tiled.tile fun child member =>
    (placed.children child member).start_lt_stop (holds.content child member)
  have noRoom : tags.inner.start = tags.inner.stop := by
    unfold Tags.inner
    rw [Option.isNone_iff_eq_none.1 selfClosing]
  exact List.map_eq_nil_iff.1 (tile.eq_nil_iff.2 noRoom)

/-- What is a child of something and no markup is the expression in a pair of braces, and holds
nothing. -/
theorem Placed.child_cases (placed : Placed source outline) {child : Outline}
    (member : child ∈ outline.children) :
    child.kind.isContent = true ∨ outline.kind = .container ∧ child.children = [] := by
  cases placed with
  | text => cases member
  | empty => cases member
  | other => cases member
  | container _ _ expression =>
    rw [List.mem_singleton.1 member]
    rcases expression with tagged | ⟨nothing, -⟩
    · exact Or.inl (isContent_of_isTagged tagged)
    · exact Or.inr ⟨rfl, nothing⟩
  | tagged _ _ _ _ _ _ content => exact Or.inl (content child member)
  | root _ _ _ tagged =>
    rw [List.mem_singleton.1 member]
    exact Or.inl (isContent_of_isTagged tagged)

theorem Placed.isRoot_of_mem_aside (placed : Placed source outline) :
    ∀ root ∈ outline.aside, IsRoot root := by
  cases placed with
  | text => simp [Outline.aside]
  | empty => simp [Outline.aside]
  | other _ roots => exact roots
  | container => simp [Outline.aside]
  | tagged _ _ roots => exact roots
  | root => simp [Outline.aside]

/-- Of all that is in placed roots, only roots have no parent. -/
theorem isRoot_of_parent_eq_none {outlines : List Outline} (rooted : Rooted source outlines) :
    ∀ entry ∈ entriesAll none outlines, entry.parent = none → IsRoot entry.outline := by
  have handedOn : HandedOn fun parent outline =>
      Placed source outline ∧ (parent = none → IsRoot outline) := by
    refine ⟨?_, ?_⟩
    · rintro parent outline ⟨placed, -⟩ root member
      exact ⟨placed.aside root member, fun _ => placed.isRoot_of_mem_aside root member⟩
    · rintro parent outline ⟨placed, -⟩ child member
      exact ⟨placed.children child member, fun none => by cases none⟩
  intro entry member
  refine (handedOn.entriesAll none outlines ?_ entry member).2
  intro root isRoot
  exact ⟨(rooted root isRoot).2, fun _ => (rooted root isRoot).1⟩

end Outline

/-! ## Trees -/

namespace Tree

/-- Whether a node has one child, which is of one of the kinds that are allowed. -/
def HoldsOne (tree : Tree) (node : Node) (allowed : NodeKind → Bool) : Prop :=
  ∃ only kind, node.children = [only] ∧ tree.kind? only = some kind ∧ allowed kind = true

/-- Whether the nodes of a tree hold what markup is made of. -/
structure Shaped (tree : Tree) : Prop where
  roots : ∀ id ∈ tree.roots, ∃ node, tree.node? id = some node ∧ node.kind.isContext = true
    ∧ tree.HoldsOne node NodeKind.isTagged
  content : ∀ id node, tree.node? id = some node → node.kind.isTagged = true →
    ∀ child ∈ node.children, ∃ kind, tree.kind? child = some kind ∧ kind.isContent = true
  containers : ∀ id node, tree.node? id = some node → node.kind = .container →
    tree.HoldsOne node NodeKind.isExpression
  empties : ∀ id node, tree.node? id = some node → node.kind = .empty →
    ∃ parent, node.parent = some parent ∧ tree.kind? parent = some .container
  /-- Texts and the nothing in empty braces have no children. -/
  leaves : ∀ id node, tree.node? id = some node →
    node.kind.text?.isSome = true ∨ node.kind = .empty → node.children = []
  /-- A construct has no children unless it is a root. -/
  others : ∀ id node, tree.node? id = some node → ∀ construct, node.kind = .other construct →
    node.parent ≠ none → node.children = []
  selfClosing : ∀ id node, tree.node? id = some node → ∀ tags ∈ node.kind.tags?,
    tags.isSelfClosing = true → node.children = []

variable {dialect : Dialect} {source : Text} {tree : Tree} {all : List Entry}

open Outline

theorem exists_node_of_mem_roots {id : Nat} (isRoot : id ∈ tree.roots) :
    ∃ node, tree.node? id = some node ∧ node.parent = none := by
  have parentless := (List.mem_filter.1 isRoot).2
  obtain ⟨node, found, none⟩ := (Option.any_eq_true _ _).1 parentless
  exact ⟨node, found, Option.isNone_iff_eq_none.1 none⟩

/-- A node has no children if its entry has none. -/
theorem children_of_describes {node : Node} {entry : Entry} (describes : Describes all node entry)
    (nothing : entry.outline.children = []) : node.children = [] := by
  have listed := describes.children
  rw [nothing, List.map_nil] at listed
  exact List.map_eq_nil_iff.1 listed

theorem Lists.kind?_of_getElem? (lists : tree.Lists all) {id : Nat} {entry : Entry}
    (listed : all[id]? = some entry) : tree.kind? id = some entry.outline.kind := by
  have kinds := congrFun lists.kind?_eq id
  rw [listed, Option.map_some] at kinds
  exact kinds

theorem Lists.exists_kind_of_mem (lists : tree.Lists all) {node : Node} {entry : Entry}
    (describes : Describes all node entry) {child : Nat} (member : child ∈ node.children) :
    ∃ outline ∈ entry.outline.children, tree.kind? child = some outline.kind := by
  obtain ⟨below, outline, isChild, found, describesChild⟩ := lists.exists_child describes member
  exact ⟨outline, isChild, by rw [kind?, found, Option.map_some, describesChild.kind]⟩

/-- A node has one child of a kind if its entry has. -/
theorem Lists.holdsOne (lists : tree.Lists all) {node : Node} {entry : Entry}
    (describes : Describes all node entry) {only : Outline} {allowed : NodeKind → Bool}
    (childrenEq : entry.outline.children = [only]) (isAllowed : allowed only.kind = true) :
    tree.HoldsOne node allowed := by
  obtain ⟨id, child, idsEq, found, describesOnly⟩ := lists.exists_only_child describes childrenEq
  have kindEq : tree.kind? id = some only.kind := by
    rw [kind?, found, Option.map_some, describesOnly.kind]
  exact ⟨id, only.kind, idsEq, kindEq, isAllowed⟩

/-- A node that is a child and no markup is the expression in a pair of braces, and has no
children. -/
theorem Records.child_cases (records : tree.Records all) {node : Node} {entry : Entry}
    (describes : Describes all node entry) {parent : Nat} (isParent : node.parent = some parent) :
    node.kind.isContent = true ∨ tree.kind? parent = some .container ∧ node.children = [] := by
  obtain ⟨above, listed, isChild⟩ := describes.under parent isParent
  have placed := records.placed above (List.mem_of_getElem? listed)
  rcases placed.child_cases isChild with content | ⟨isContainer, nothing⟩
  · rw [describes.kind]
    exact Or.inl content
  · refine Or.inr ⟨?_, children_of_describes describes nothing⟩
    rw [records.lists.kind?_of_getElem? listed, isContainer]

/-- A tree that records placed outlines, the parentless ones of which are roots, is of the shape of
markup. -/
theorem Records.shaped (records : tree.Records all)
    (areRoots : ∀ entry ∈ all, entry.parent = none → IsRoot entry.outline) : tree.Shaped := by
  have parentless : ∀ node entry, entry ∈ all → Describes all node entry → node.parent = none →
      IsRoot entry.outline := by
    intro node entry member describes none
    refine areRoots entry member ?_
    rw [← describes.parent, none]
    rfl
  refine ⟨?_, ?_, ?_, ?_, ?_, ?_, ?_⟩
  · intro id isRoot
    obtain ⟨node, found, none⟩ := exists_node_of_mem_roots isRoot
    obtain ⟨entry, listed, describes⟩ := records.lists.exists_entry found
    obtain ⟨kind, span, below, outlineEq, context, tagged, -⟩ :=
      parentless node entry (List.mem_of_getElem? listed) describes none
    refine ⟨node, found, ?_, ?_⟩
    · rw [describes.kind, outlineEq]
      exact context
    · refine records.lists.holdsOne describes ?_ tagged
      rw [outlineEq]
      rfl
  · intro id node found tagged child member
    obtain ⟨entry, listed, describes⟩ := records.lists.exists_entry found
    obtain ⟨below, isChild, kindEq⟩ := records.lists.exists_kind_of_mem describes member
    rw [describes.kind] at tagged
    obtain ⟨tags, tagsEq⟩ := NodeKind.exists_tags tagged
    have holds := (records.placed entry (List.mem_of_getElem? listed)).holds tagsEq
    exact ⟨below.kind, kindEq, holds.content below isChild⟩
  · intro id node found isContainer
    obtain ⟨entry, listed, describes⟩ := records.lists.exists_entry found
    rw [describes.kind] at isContainer
    obtain ⟨only, childrenEq, expression⟩ :=
      (records.placed entry (List.mem_of_getElem? listed)).children_of_container isContainer
    exact records.lists.holdsOne describes childrenEq expression
  · intro id node found isEmpty
    obtain ⟨entry, listed, describes⟩ := records.lists.exists_entry found
    cases parentEq : node.parent with
    | none =>
      obtain ⟨kind, span, below, outlineEq, context, -, -⟩ :=
        parentless node entry (List.mem_of_getElem? listed) describes parentEq
      have kindEq : kind = .empty := by
        rw [← isEmpty, describes.kind, outlineEq]
        rfl
      rw [kindEq] at context
      cases context
    | some parent =>
      rcases records.child_cases describes parentEq with content | ⟨isContainer, -⟩
      · rw [isEmpty] at content
        cases content
      · exact ⟨parent, rfl, isContainer⟩
  · intro id node found isLeaf
    obtain ⟨entry, listed, describes⟩ := records.lists.exists_entry found
    rw [describes.kind] at isLeaf
    exact children_of_describes describes
      ((records.placed entry (List.mem_of_getElem? listed)).children_of_leaf isLeaf)
  · intro id node found construct isOther isChild
    obtain ⟨entry, -, describes⟩ := records.lists.exists_entry found
    obtain ⟨parent, parentEq⟩ := Option.ne_none_iff_exists'.1 isChild
    rcases records.child_cases describes parentEq with content | ⟨-, nothing⟩
    · rw [isOther] at content
      cases content
    · exact nothing
  · intro id node found tags tagsEq selfClosing
    obtain ⟨entry, listed, describes⟩ := records.lists.exists_entry found
    rw [describes.kind] at tagsEq
    exact children_of_describes describes
      ((records.placed entry (List.mem_of_getElem? listed)).children_of_isSelfClosing tagsEq
        selfClosing)

section Parser

variable [SyntaxParser] [LawfulSyntaxParser]

/-- The shape of markup. In the tree of an accepted source every root is a construct or a pair of
braces, and has one child, an element or a fragment. The children of elements and fragments are
elements, fragments, texts and pairs of braces. A pair of braces has one child: an element, a
fragment, a construct, or the nothing that stands nowhere else. Nothing else has children, and tags
that close themselves have none. -/
theorem shaped_ofSource (accepted : ofSource dialect source = .ok tree) : tree.Shaped := by
  obtain ⟨root, parsed, sound, rfl⟩ := ofSource_eq_ok_iff.1 accepted
  have lawful := LawfulSyntaxParser.lawful parsed sound
  exact (records_ofSyntax lawful).shaped (isRoot_of_parent_eq_none (Outline.rooted_roots lawful))

end Parser

open Scripts

/-- A paragraph holds a call in braces, an empty pair of braces and a text. The elements in its
attribute and in the arguments of the call hang under roots of their own. -/
theorem shaped_ofSource_paragraph :
    ∃ tree, ofSource .javascript "<p q=\x7b<i/>\x7d>\x7bf(<b/>)\x7d\x7b\x7dx</p>".toList = .ok tree
      ∧ tree.roots = [0, 2, 6]
      ∧ tree.nodes.toList.map (·.children) = [[1], [4, 8, 10], [3], [], [5], [], [7], [], [9], [], []]
      ∧ tree.Shaped := by
  have computed :
      (ofSource .javascript "<p q=\x7b<i/>\x7d>\x7bf(<b/>)\x7d\x7b\x7dx</p>".toList).toOption.map
        (fun tree => (tree.roots, tree.nodes.toList.map (·.children)))
      = some ([0, 2, 6], [[1], [4, 8, 10], [3], [], [5], [], [7], [], [9], [], []]) := by
    decide +kernel
  obtain ⟨tree, isTree, parts⟩ := Option.map_eq_some_iff.1 computed
  obtain ⟨roots, children⟩ := Prod.mk.inj parts
  exact ⟨tree, ok_of_toOption isTree, roots, children, shaped_ofSource (ok_of_toOption isTree)⟩

end Tree

end FragmentLint
