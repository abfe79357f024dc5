import FragmentLint.Markup.Outline
import FragmentLint.Rule.Site
import Mathlib.Data.List.Forall2

/-!
Contract: what becomes of nested markup when its nodes are numbered.

Outlines are numbered in the order in which they are read: a node, what was found aside of it, its
children. `entriesAll` lists them in that order, each with the kind of its parent, without any
number; `nodesFromAll` lists the numbered nodes. Main statements: a tree grown from outlines holds
exactly the numbered nodes (`nodes_pushAll`), node and entry of one number describe each other
(`describes_nodesFromAll`), and the surroundings of a node are those of its entry
(`site?_eq_map_entries`).
-/

namespace FragmentLint

/-- An outline as the rule sees it when it is a child. -/
def Outline.child (outline : Outline) : Child :=
  ⟨outline.kind, outline.children.head?.map Outline.kind⟩

/-- An outline in its place: the kind of its parent, and the outline. -/
structure Entry where
  parent : Option NodeKind
  outline : Outline

/-- The surroundings of an outline in its place. -/
def Entry.site (entry : Entry) : Site :=
  ⟨entry.outline.kind, entry.outline.span, entry.parent, entry.outline.children.map Outline.child⟩

namespace Outline

mutual
/-- The outlines in an outline, itself included, in the order of their numbers. -/
def entries (parent : Option NodeKind) : Outline → List Entry
  | .node kind span aside children =>
    ⟨parent, .node kind span aside children⟩ ::
      (entriesAll none aside ++ entriesAll (some kind) children)

/-- The outlines in several outlines under one parent. -/
def entriesAll (parent : Option NodeKind) : List Outline → List Entry
  | [] => []
  | first :: rest => entries parent first ++ entriesAll parent rest
end

mutual
/-- The number of nodes that an outline becomes. -/
def count : Outline → Nat
  | .node _ _ aside children => 1 + countAll aside + countAll children

/-- The number of nodes that several outlines become. -/
def countAll : List Outline → Nat
  | [] => 0
  | first :: rest => count first + countAll rest
end

/-- The numbers of outlines that stand next to each other, from the number of the first one on. -/
def numbers (first : Nat) : List Outline → List Nat
  | [] => []
  | head :: rest => first :: numbers (first + head.count) rest

mutual
/-- The nodes that an outline becomes, numbered from `first` on. -/
def nodesFrom (first : Nat) (parent : Option Nat) : Outline → List Node
  | .node kind span aside children =>
    ⟨kind, span, parent, numbers (first + 1 + countAll aside) children⟩ ::
      (nodesFromAll (first + 1) none aside
        ++ nodesFromAll (first + 1 + countAll aside) (some first) children)

/-- The nodes that several outlines become, numbered from `first` on. -/
def nodesFromAll (first : Nat) (parent : Option Nat) : List Outline → List Node
  | [] => []
  | head :: rest => nodesFrom first parent head ++ nodesFromAll (first + head.count) parent rest
end

mutual
@[simp] theorem length_entries (parent : Option NodeKind) (outline : Outline) :
    (entries parent outline).length = outline.count := by
  cases outline with
  | node kind span aside children =>
    simp only [entries, count, List.length_cons, List.length_append]
    rw [length_entriesAll none aside, length_entriesAll (some kind) children]
    omega

@[simp] theorem length_entriesAll (parent : Option NodeKind) (outlines : List Outline) :
    (entriesAll parent outlines).length = countAll outlines := by
  cases outlines with
  | nil => simp only [entriesAll, countAll, List.length_nil]
  | cons head rest =>
    simp only [entriesAll, countAll, List.length_append]
    rw [length_entries parent head, length_entriesAll parent rest]
end

theorem entriesAll_append (parent : Option NodeKind) (left right : List Outline) :
    entriesAll parent (left ++ right) = entriesAll parent left ++ entriesAll parent right := by
  induction left with
  | nil => simp only [entriesAll, List.nil_append]
  | cons head rest inductionHypothesis =>
    simp only [List.cons_append, entriesAll, inductionHypothesis, List.append_assoc]

/-- Whether a property is handed on by every outline to what is aside of it and to its children. -/
structure HandedOn (property : Option NodeKind → Outline → Prop) : Prop where
  aside : ∀ parent outline, property parent outline → ∀ root ∈ outline.aside, property none root
  children : ∀ parent outline, property parent outline →
    ∀ child ∈ outline.children, property (some outline.kind) child

namespace HandedOn

variable {property : Option NodeKind → Outline → Prop}

mutual
theorem entries (handedOn : HandedOn property) (parent : Option NodeKind) (outline : Outline)
    (holds : property parent outline) :
    ∀ entry ∈ outline.entries parent, property entry.parent entry.outline := by
  cases outline with
  | node kind span aside children =>
    intro entry member
    simp only [Outline.entries, List.mem_cons, List.mem_append] at member
    rcases member with rfl | inAside | inChildren
    · exact holds
    · exact entriesAll handedOn none aside (handedOn.aside parent _ holds) entry inAside
    · exact entriesAll handedOn (some kind) children (handedOn.children parent _ holds) entry
        inChildren

/-- What is handed on goes for everything in outlines, if it goes for these. -/
theorem entriesAll (handedOn : HandedOn property) (parent : Option NodeKind)
    (outlines : List Outline) (holds : ∀ outline ∈ outlines, property parent outline) :
    ∀ entry ∈ Outline.entriesAll parent outlines, property entry.parent entry.outline := by
  cases outlines with
  | nil =>
    intro entry member
    simp only [Outline.entriesAll, List.not_mem_nil] at member
  | cons head rest =>
    intro entry member
    simp only [Outline.entriesAll, List.mem_append] at member
    rcases member with inHead | inRest
    · exact entries handedOn parent head (holds head List.mem_cons_self) entry inHead
    · exact entriesAll handedOn parent rest
        (fun outline inRest => holds outline (List.mem_cons_of_mem _ inRest)) entry inRest
end

end HandedOn

mutual
@[simp] theorem length_nodesFrom (first : Nat) (parent : Option Nat) (outline : Outline) :
    (nodesFrom first parent outline).length = outline.count := by
  cases outline with
  | node kind span aside children =>
    simp only [nodesFrom, count, List.length_cons, List.length_append]
    rw [length_nodesFromAll _ none aside, length_nodesFromAll _ (some first) children]
    omega

@[simp] theorem length_nodesFromAll (first : Nat) (parent : Option Nat) (outlines : List Outline) :
    (nodesFromAll first parent outlines).length = countAll outlines := by
  cases outlines with
  | nil => simp only [nodesFromAll, countAll, List.length_nil]
  | cons head rest =>
    simp only [nodesFromAll, countAll, List.length_append]
    rw [length_nodesFrom first parent head, length_nodesFromAll _ parent rest]
end

/-! Growing a tree -/

/-- Nodes among which a parent, if one is given, has further children. -/
def adoptAll (nodes : List Node) (parent : Option Nat) (children : List Nat) : List Node :=
  match parent with
  | some parent => nodes.modify parent fun node =>
      { node with children := node.children ++ children }
  | none => nodes

@[simp] theorem adoptAll_none (nodes : List Node) (children : List Nat) :
    adoptAll nodes none children = nodes := rfl

@[simp] theorem adoptAll_nil (nodes : List Node) (parent : Option Nat) :
    adoptAll nodes parent [] = nodes := by
  cases parent with
  | none => rfl
  | some parent =>
    simp only [adoptAll, List.append_nil]
    exact List.modify_id parent nodes

theorem adoptAll_adoptAll (nodes : List Node) (parent : Option Nat) (left right : List Nat) :
    adoptAll (adoptAll nodes parent left) parent right = adoptAll nodes parent (left ++ right) := by
  cases parent with
  | none => rfl
  | some parent =>
    simp only [adoptAll, List.modify_modify_eq]
    congr 1
    funext node
    simp [Function.comp]

theorem adoptAll_append {nodes more : List Node} {parent : Option Nat} {children : List Nat}
    (inside : ∀ id ∈ parent, id < nodes.length) :
    adoptAll (nodes ++ more) parent children = adoptAll nodes parent children ++ more := by
  cases parent with
  | none => rfl
  | some parent =>
    have known : parent < nodes.length := inside parent rfl
    simp only [adoptAll]
    rw [List.modify_eq_take_cons_drop (by rw [List.length_append]; omega),
      List.modify_eq_take_cons_drop known, List.take_append_of_le_length (Nat.le_of_lt known),
      List.drop_append_of_le_length known, List.getElem_append_left known]
    simp

theorem adoptAll_cons {nodes more : List Node} {node : Node} {children : List Nat} :
    adoptAll (nodes ++ node :: more) (some nodes.length) children
      = nodes ++ { node with children := node.children ++ children } :: more := by
  simp only [adoptAll]
  rw [List.modify_eq_take_cons_drop (by simp)]
  simp

theorem length_adoptAll (nodes : List Node) (parent : Option Nat) (children : List Nat) :
    (adoptAll nodes parent children).length = nodes.length := by
  cases parent with
  | none => rfl
  | some parent => simp [adoptAll]

theorem size_eq_length (tree : Tree) : tree.size = tree.nodes.toList.length :=
  Array.length_toList.symm

theorem size_of_nodes {tree grown : Tree} {parent : Option Nat} {children : List Nat}
    {more : List Node}
    (nodes : grown.nodes.toList = adoptAll tree.nodes.toList parent children ++ more) :
    grown.size = tree.size + more.length := by
  rw [size_eq_length, nodes, List.length_append, length_adoptAll, ← size_eq_length]

theorem nodes_push (tree : Tree) (kind : NodeKind) (span : Span) (parent : Option Nat)
    (inside : ∀ id ∈ parent, id < tree.size) :
    (tree.push kind span parent).1.nodes.toList
      = adoptAll tree.nodes.toList parent [tree.size] ++ [⟨kind, span, parent, []⟩] := by
  cases parent with
  | none => simp [Tree.push, adoptAll]
  | some parent =>
    have known : ∀ id ∈ some parent, id < tree.nodes.toList.length := inside
    simp only [Tree.push, Tree.adopt, Array.toList_modify, Array.toList_push]
    exact adoptAll_append known

mutual
theorem nodes_pushTo (tree : Tree) (parent : Option Nat) (outline : Outline)
    (inside : ∀ id ∈ parent, id < tree.size) :
    (pushTo tree parent outline).nodes.toList
      = adoptAll tree.nodes.toList parent [tree.size] ++ nodesFrom tree.size parent outline := by
  cases outline with
  | node kind span aside children =>
    have own := nodes_push tree kind span parent inside
    have withAside := nodes_pushAll (tree.push kind span parent).1 none aside (by simp)
    rw [Tree.size_push, adoptAll_none, own, List.append_assoc] at withAside
    have size := size_of_nodes withAside
    simp only [List.length_append, List.length_singleton, length_nodesFromAll] at size
    have withChildren := nodes_pushAll (pushAll (tree.push kind span parent).1 none aside)
      (some tree.size) children (by
        rintro id ⟨⟩
        omega)
    have length : (adoptAll tree.nodes.toList parent [tree.size]).length = tree.size := by
      rw [length_adoptAll, ← size_eq_length]
    have adopted := @adoptAll_cons (adoptAll tree.nodes.toList parent [tree.size])
      (nodesFromAll (tree.size + 1) none aside) ⟨kind, span, parent, []⟩
      (numbers (tree.size + 1 + countAll aside) children)
    rw [length] at adopted
    rw [withAside, size, ← Nat.add_assoc, List.singleton_append, adopted] at withChildren
    simp only [pushTo, Tree.push_id]
    rw [withChildren]
    simp [nodesFrom]

/-- Pushing outlines adds their nodes, and makes the first node of each a child of the parent. -/
theorem nodes_pushAll (tree : Tree) (parent : Option Nat) (outlines : List Outline)
    (inside : ∀ id ∈ parent, id < tree.size) :
    (pushAll tree parent outlines).nodes.toList
      = adoptAll tree.nodes.toList parent (numbers tree.size outlines)
        ++ nodesFromAll tree.size parent outlines := by
  cases outlines with
  | nil => simp [pushAll, numbers, nodesFromAll]
  | cons head rest =>
    have first := nodes_pushTo tree parent head inside
    have size := size_of_nodes first
    rw [length_nodesFrom] at size
    have others := nodes_pushAll (pushTo tree parent head) parent rest (by
      intro id isParent
      rw [size]
      exact Nat.lt_add_right _ (inside id isParent))
    have known : ∀ id ∈ parent, id < (adoptAll tree.nodes.toList parent [tree.size]).length := by
      intro id isParent
      rw [length_adoptAll, ← size_eq_length]
      exact inside id isParent
    rw [first, size, adoptAll_append known, adoptAll_adoptAll, List.append_assoc] at others
    simp only [pushAll]
    exact others
end

/-! Nodes and their entries -/

/-- Whether a node is the numbered form of an entry: its parent and its children are numbers of
entries among `all`, and it is a child of its parent. -/
structure Describes (all : List Entry) (node : Node) (entry : Entry) : Prop where
  kind : node.kind = entry.outline.kind
  span : node.span = entry.outline.span
  parent : (node.parent.bind fun id => all[id]?.map (·.outline.kind)) = entry.parent
  under : ∀ id ∈ node.parent, ∃ above, all[id]? = some above
    ∧ entry.outline ∈ above.outline.children
  children : node.children.map (all[·]?)
    = entry.outline.children.map fun child => some ⟨some entry.outline.kind, child⟩

variable {all : List Entry}

/-- The number of a child belongs to an entry for a child. -/
theorem Describes.exists_of_mem_children {node : Node} {entry : Entry}
    (describes : Describes all node entry) {id : Nat} (member : id ∈ node.children) :
    ∃ outline ∈ entry.outline.children, all[id]? = some ⟨some entry.outline.kind, outline⟩ := by
  have listed := List.mem_map_of_mem (f := (all[·]?)) member
  rw [describes.children] at listed
  obtain ⟨outline, isChild, same⟩ := List.mem_map.1 listed
  exact ⟨outline, isChild, same.symm⟩

/-- Entries that stand behind each other in a list, from a number on. -/
theorem prefix_drop_of_append {first : Nat} {left right : List Entry}
    (stands : left ++ right <+: all.drop first) :
    left <+: all.drop first ∧ right <+: all.drop (first + left.length) := by
  obtain ⟨more, whole⟩ := stands
  refine ⟨⟨right ++ more, by rw [← whole, List.append_assoc]⟩, more, ?_⟩
  rw [← List.drop_drop, ← whole, List.append_assoc, List.drop_left]

theorem getElem?_of_prefix_drop {first : Nat} {entry : Entry} {rest : List Entry}
    (stands : entry :: rest <+: all.drop first) : all[first]? = some entry := by
  obtain ⟨more, whole⟩ := stands
  have head : (all.drop first)[0]? = some entry := by
    rw [← whole]
    rfl
  rw [List.getElem?_drop, Nat.add_zero] at head
  exact head

theorem entries_eq_cons (parent : Option NodeKind) (outline : Outline) :
    ∃ rest, entries parent outline = ⟨parent, outline⟩ :: rest := by
  cases outline with
  | node kind span aside children =>
    simp only [entries]
    exact ⟨_, rfl⟩

/-- The numbers of outlines that stand next to each other lead to them. -/
theorem map_numbers {parent : Option NodeKind} (outlines : List Outline) {first : Nat}
    (stands : entriesAll parent outlines <+: all.drop first) :
    (numbers first outlines).map (all[·]?) = outlines.map fun child => some ⟨parent, child⟩ := by
  induction outlines generalizing first with
  | nil => rfl
  | cons head rest inductionHypothesis =>
    simp only [entriesAll] at stands
    obtain ⟨here, behind⟩ := prefix_drop_of_append stands
    rw [length_entries] at behind
    obtain ⟨others, own⟩ := entries_eq_cons parent head
    rw [own] at here
    simp only [numbers, List.map_cons]
    rw [getElem?_of_prefix_drop here, inductionHypothesis behind]

mutual
theorem describes_nodesFrom (outline : Outline) {first : Nat} {parent : Option Nat}
    {parentKind : Option NodeKind}
    (parentEq : (parent.bind fun id => all[id]?.map (·.outline.kind)) = parentKind)
    (under : ∀ id ∈ parent, ∃ above, all[id]? = some above ∧ outline ∈ above.outline.children)
    (stands : entries parentKind outline <+: all.drop first) :
    List.Forall₂ (Describes all) (nodesFrom first parent outline) (entries parentKind outline) := by
  cases outline with
  | node kind span aside children =>
    simp only [entries] at stands
    have own : all[first]? = some ⟨parentKind, .node kind span aside children⟩ :=
      getElem?_of_prefix_drop stands
    -- The entries that follow are those found aside, then those of the children.
    have split := @prefix_drop_of_append all first [_] _ stands
    obtain ⟨asideStands, childrenStand⟩ := prefix_drop_of_append split.2
    rw [List.length_singleton] at asideStands childrenStand
    rw [length_entriesAll] at childrenStand
    have ownKind : ((some first).bind fun id => all[id]?.map (·.outline.kind)) = some kind := by
      rw [Option.bind_some, own]
      rfl
    simp only [nodesFrom, entries]
    refine .cons ⟨rfl, rfl, parentEq, under, ?_⟩ (List.rel_append ?_ ?_)
    · exact map_numbers children childrenStand
    · exact describes_nodesFromAll aside rfl (by simp) asideStands
    · refine describes_nodesFromAll children ownKind ?_ childrenStand
      rintro child member _ ⟨⟩
      exact ⟨_, own, member⟩

/-- The nodes that several outlines become are the numbered forms of their entries. -/
theorem describes_nodesFromAll (outlines : List Outline) {first : Nat} {parent : Option Nat}
    {parentKind : Option NodeKind}
    (parentEq : (parent.bind fun id => all[id]?.map (·.outline.kind)) = parentKind)
    (under : ∀ outline ∈ outlines, ∀ id ∈ parent,
      ∃ above, all[id]? = some above ∧ outline ∈ above.outline.children)
    (stands : entriesAll parentKind outlines <+: all.drop first) :
    List.Forall₂ (Describes all) (nodesFromAll first parent outlines)
      (entriesAll parentKind outlines) := by
  cases outlines with
  | nil =>
    simp only [nodesFromAll, entriesAll]
    exact .nil
  | cons head rest =>
    simp only [entriesAll] at stands
    obtain ⟨here, behind⟩ := prefix_drop_of_append stands
    rw [length_entries] at behind
    simp only [nodesFromAll, entriesAll]
    apply List.rel_append
    · exact describes_nodesFrom head parentEq (under head List.mem_cons_self) here
    · exact describes_nodesFromAll rest parentEq
        (fun outline inRest => under outline (List.mem_cons_of_mem _ inRest)) behind
end

end Outline

namespace Tree

open Outline

/-- The entries of a tree: its outlines in their places, in the order of their numbers. -/
def Lists (tree : Tree) (all : List Entry) : Prop :=
  List.Forall₂ (Describes all) tree.nodes.toList all

/-- Lists that agree item by item agree at every place, and end at the same place. -/
theorem related_or_none {nodes : List Node} {entries : List Entry} {relation : Node → Entry → Prop}
    (related : List.Forall₂ relation nodes entries) (id : Nat) :
    (∃ node entry, nodes[id]? = some node ∧ entries[id]? = some entry ∧ relation node entry)
      ∨ nodes[id]? = none ∧ entries[id]? = none := by
  induction related generalizing id with
  | nil => exact Or.inr ⟨rfl, rfl⟩
  | cons first _ inductionHypothesis =>
    cases id with
    | zero => exact Or.inl ⟨_, _, rfl, rfl, first⟩
    | succ id => exact inductionHypothesis id

/-- A tree that is grown from outlines lists their entries. -/
theorem lists_pushAll (source : Text) (comments : List Comment) (outlines : List Outline) :
    (pushAll { Tree.empty source with comments } none outlines).Lists
      (entriesAll none outlines) := by
  have nodes := nodes_pushAll { Tree.empty source with comments } none outlines (by simp)
  rw [adoptAll_none] at nodes
  show List.Forall₂ _ (pushAll { Tree.empty source with comments } none outlines).nodes.toList _
  rw [nodes]
  exact describes_nodesFromAll outlines rfl (by simp) (List.prefix_refl _)

variable {tree : Tree} {all : List Entry}

/-- A number belongs to a node and its entry, or to neither. -/
theorem Lists.known_or_unknown (lists : tree.Lists all) (id : Nat) :
    (∃ node entry, tree.node? id = some node ∧ all[id]? = some entry ∧ Describes all node entry)
      ∨ tree.node? id = none ∧ all[id]? = none := by
  have nodeEq : tree.node? id = tree.nodes.toList[id]? := Array.getElem?_toList.symm
  rw [nodeEq]
  exact related_or_none lists id

theorem Lists.exists_entry (lists : tree.Lists all) {id : Nat} {node : Node}
    (found : tree.node? id = some node) :
    ∃ entry, all[id]? = some entry ∧ Describes all node entry := by
  rcases lists.known_or_unknown id with ⟨node', entry, known, listed, describes⟩ | ⟨unknown, -⟩
  · rw [found] at known
    obtain rfl := Option.some.inj known
    exact ⟨entry, listed, describes⟩
  · rw [found] at unknown
    cases unknown

theorem Lists.exists_node (lists : tree.Lists all) {id : Nat} {entry : Entry}
    (listed : all[id]? = some entry) :
    ∃ node, tree.node? id = some node ∧ Describes all node entry := by
  rcases lists.known_or_unknown id with ⟨node, entry', known, listed', describes⟩ | ⟨-, unlisted⟩
  · rw [listed] at listed'
    obtain rfl := Option.some.inj listed'
    exact ⟨node, known, describes⟩
  · rw [listed] at unlisted
    cases unlisted

/-- A child of a node is the numbered form of a child of its entry. -/
theorem Lists.exists_child (lists : tree.Lists all) {node : Node} {entry : Entry}
    (describes : Describes all node entry) {id : Nat} (member : id ∈ node.children) :
    ∃ child, ∃ outline ∈ entry.outline.children, tree.node? id = some child
      ∧ Describes all child ⟨some entry.outline.kind, outline⟩ := by
  obtain ⟨outline, isChild, listed⟩ := describes.exists_of_mem_children member
  obtain ⟨child, found, describesChild⟩ := lists.exists_node listed
  exact ⟨child, outline, isChild, found, describesChild⟩

/-- The only child of a node is the numbered form of the only child of its entry. -/
theorem Lists.exists_only_child (lists : tree.Lists all) {node : Node} {entry : Entry}
    (describes : Describes all node entry) {outline : Outline}
    (lone : entry.outline.children = [outline]) :
    ∃ only child, node.children = [only] ∧ tree.node? only = some child
      ∧ Describes all child ⟨some entry.outline.kind, outline⟩ := by
  have listed := describes.children
  rw [lone, List.map_singleton] at listed
  obtain ⟨only, onlyEq, listedOnly⟩ := List.map_eq_singleton_iff.1 listed
  obtain ⟨child, found, describesChild⟩ := lists.exists_node listedOnly
  exact ⟨only, child, onlyEq, found, describesChild⟩

theorem Lists.kind?_eq (lists : tree.Lists all) :
    tree.kind? = fun id => all[id]?.map (·.outline.kind) := by
  funext id
  unfold kind?
  rcases lists.known_or_unknown id with ⟨node, entry, known, listed, describes⟩
    | ⟨unknown, unlisted⟩
  · rw [known, listed, Option.map_some, Option.map_some, describes.kind]
  · rw [unknown, unlisted]
    rfl

theorem Lists.first?_eq (lists : tree.Lists all) {node : Node} {entry : Entry}
    (describes : Describes all node entry) :
    node.children.head?.bind tree.kind? = entry.outline.children.head?.map Outline.kind := by
  have heads := congrArg List.head? describes.children
  rw [List.head?_map, List.head?_map] at heads
  rw [lists.kind?_eq]
  cases first : node.children.head? with
  | none =>
    rw [first] at heads
    rw [Option.map_eq_none_iff.1 heads.symm]
    rfl
  | some id =>
    rw [first] at heads
    obtain ⟨child, isFirst, listed⟩ := Option.map_eq_some_iff.1 heads.symm
    have listedChild : all[id]? = some ⟨some entry.outline.kind, child⟩ := listed.symm
    rw [isFirst, Option.bind_some, listedChild]
    rfl

theorem Lists.child?_eq (lists : tree.Lists all) :
    tree.child? = fun id => all[id]?.map (·.outline.child) := by
  funext id
  unfold child?
  rcases lists.known_or_unknown id with ⟨node, entry, known, listed, describes⟩
    | ⟨unknown, unlisted⟩
  · rw [known, listed, Option.map_some, Option.map_some, lists.first?_eq describes, describes.kind]
    rfl
  · rw [unknown, unlisted]
    rfl

/-- The surroundings of a node are those of its entry. -/
theorem Lists.site?_eq_map_entries (lists : tree.Lists all) (id : Nat) :
    tree.site? id = all[id]?.map Entry.site := by
  unfold site?
  rcases lists.known_or_unknown id with ⟨node, entry, known, listed, describes⟩
    | ⟨unknown, unlisted⟩
  · have children : node.children.filterMap tree.child?
    = entry.outline.children.map Outline.child := by
      have mapped := congrArg (List.filterMap (Option.map fun entry => entry.outline.child))
        describes.children
      rw [List.filterMap_map, List.filterMap_map] at mapped
      rw [lists.child?_eq]
      apply mapped.trans
      rw [← List.filterMap_eq_map]
      rfl
    rw [known, listed, Option.map_some, Option.map_some, children, lists.kind?_eq, describes.parent,
      describes.kind, describes.span]
    rfl
  · rw [unknown, unlisted]
    rfl

end Tree

end FragmentLint
