import FragmentLint.Inspection
import FragmentLint.Proofs.Markup.Numbering
import Mathlib.Logic.Relation

/-!
Contract: nodes and their numbers, in every tree that is made by adding nodes one by one.

A node keeps its place twice: it names its parent, and its parent lists it. A push keeps the two in
step, and the number of a parent smaller than those of its children (`Linked.push`). So a walk from
the roots down ends, and comes to every node once. Main statement: `Grown.walk_visits_each_once`.

Owns: the trees that pushes make, the two ways to look up a place, and the walk.
Does not own: trees that come from a source.
-/

namespace FragmentLint.Tree

/-- The trees that are made by adding nodes, each under no parent or under one whose number was
answered before, with the numbers that were answered so far. -/
inductive Grown : Tree → List Nat → Prop where
  | empty (source : Text) : Grown (Tree.empty source) []
  | push {tree : Tree} {made : List Nat} (grown : Grown tree made) (kind : NodeKind) (span : Span)
      (parent : Option Nat) (known : ∀ id ∈ parent, id ∈ made) :
      Grown (tree.push kind span parent).1 (made ++ [(tree.push kind span parent).2])
  | comment {tree : Tree} {made : List Nat} (grown : Grown tree made) (comment : Comment) :
      Grown (tree.pushComment comment) made

/-- The parent that a node names. -/
def parent? (tree : Tree) (id : Nat) : Option Nat := (tree.node? id).bind (·.parent)

/-- The children that a node lists. -/
def childrenOf (tree : Tree) (id : Nat) : List Nat :=
  ((tree.node? id).map (·.children)).getD []

/-- Whether the places that nodes name and those that they are listed in are the same, with parents
numbered before their children. -/
structure Linked (tree : Tree) : Prop where
  parent_lt : ∀ child parent, tree.parent? child = some parent → parent < child
  mem_children_iff : ∀ parent child,
    child ∈ tree.childrenOf parent ↔ tree.parent? child = some parent
  increasing : ∀ parent, (tree.childrenOf parent).Pairwise (· < ·)

variable {tree : Tree} {kind : NodeKind} {span : Span} {parent : Option Nat}

/-! ## What a push does -/

theorem node?_eq_none_iff {id : Nat} : tree.node? id = none ↔ tree.size ≤ id :=
  Array.getElem?_eq_none_iff

/-- A push adds one node, lists it in its parent, and leaves everything else alone. -/
theorem node?_push (known : ∀ id ∈ parent, id < tree.size) (id : Nat) :
    (tree.push kind span parent).1.node? id =
      if id = tree.size then some ⟨kind, span, parent, []⟩
      else (tree.node? id).map fun node =>
        if parent = some id then { node with children := node.children ++ [tree.size] }
        else node := by
  have pushed : (tree.nodes.push ⟨kind, span, parent, []⟩)[id]? =
      if id = tree.size then some ⟨kind, span, parent, []⟩ else tree.node? id :=
    Array.getElem?_push
  cases parent with
  | none =>
    simp only [reduceCtorEq, if_false, Option.map_id']
    exact pushed
  | some above =>
    have inside : above < tree.size := known above rfl
    show (adopt (tree.nodes.push ⟨kind, span, some above, []⟩) above tree.size)[id]? = _
    rw [adopt, Array.getElem?_modify, pushed]
    by_cases isNew : id = tree.size
    · rw [if_neg (by omega), if_pos isNew, if_pos isNew]
    · by_cases isParent : above = id
      · simp [isParent, isNew]
      · simp [isParent, isNew]

theorem parent?_push (known : ∀ id ∈ parent, id < tree.size) (id : Nat) :
    (tree.push kind span parent).1.parent? id =
      if id = tree.size then parent else tree.parent? id := by
  unfold parent?
  rw [node?_push known]
  split
  · rfl
  · cases tree.node? id with
    | none => rfl
    | some node =>
      show (if _ then _ else _ : Node).parent = node.parent
      split <;> rfl

theorem childrenOf_push (known : ∀ id ∈ parent, id < tree.size) (id : Nat) :
    (tree.push kind span parent).1.childrenOf id =
      tree.childrenOf id ++ if parent = some id then [tree.size] else [] := by
  unfold childrenOf
  rw [node?_push known]
  by_cases isNew : id = tree.size
  · have noParent : parent ≠ some id := fun isParent => by
      have inside := known id isParent
      omega
    have missing : tree.node? id = none := node?_eq_none_iff.2 (Nat.le_of_eq isNew.symm)
    rw [if_pos isNew, missing, if_neg noParent]
    rfl
  · rw [if_neg isNew]
    cases found : tree.node? id with
    | none =>
      have noParent : parent ≠ some id := fun isParent => by
        have inside := known id isParent
        have outside := node?_eq_none_iff.1 found
        omega
      rw [if_neg noParent]
      rfl
    | some node =>
      by_cases isParent : parent = some id
      · simp [isParent]
      · simp [isParent]

/-! ## The invariant -/

namespace Linked

theorem empty (source : Text) : (Tree.empty source).Linked := by
  refine ⟨?_, ?_, ?_⟩
  · intro child parent named
    cases named
  · intro parent child
    constructor
    · intro listed
      cases listed
    · intro named
      cases named
  · intro parent
    exact .nil

theorem lt_size (linked : tree.Linked) {child parent : Nat}
    (listed : child ∈ tree.childrenOf parent) : child < tree.size := by
  have named := (linked.mem_children_iff parent child).1 listed
  obtain ⟨node, found, -⟩ := Option.bind_eq_some_iff.1 named
  exact Nat.lt_of_not_le fun outside => by
    rw [node?_eq_none_iff.2 outside] at found
    cases found

/-- A new node is numbered behind its parent and behind all that its parent listed before. -/
theorem push (linked : tree.Linked) (kind : NodeKind) (span : Span)
    (known : ∀ id ∈ parent, id < tree.size) : (tree.push kind span parent).1.Linked := by
  refine ⟨?_, ?_, ?_⟩
  · intro child above named
    rw [parent?_push known] at named
    split at named
    next isNew =>
      have inside := known above named
      omega
    next => exact linked.parent_lt child above named
  · intro above child
    rw [childrenOf_push known, parent?_push known, List.mem_append, linked.mem_children_iff]
    by_cases isNew : child = tree.size
    · have unlisted : tree.parent? child ≠ some above := fun named => by
        have inside := linked.lt_size ((linked.mem_children_iff above child).2 named)
        omega
      by_cases isParent : parent = some above
      · simp [isNew, isParent]
      · rw [isNew] at unlisted
        simp [isNew, isParent, unlisted]
    · by_cases isParent : parent = some above
      · simp [isNew, isParent]
      · simp [isNew, isParent]
  · intro above
    rw [childrenOf_push known]
    refine List.pairwise_append.2 ⟨linked.increasing above, ?_, ?_⟩
    · split
      · exact List.pairwise_singleton _ _
      · exact .nil
    · intro older listed newer isNew
      split at isNew
      · rw [List.mem_singleton.1 isNew]
        exact linked.lt_size listed
      · cases isNew

end Linked

namespace Grown

variable {made : List Nat}

/-- The numbers that are answered count the nodes. -/
theorem made_eq (grown : Grown tree made) : made = List.range tree.size := by
  induction grown with
  | empty => rfl
  | push _ kind span parent known inductionHypothesis =>
    rw [size_push, List.range_succ, push_id, ← inductionHypothesis]
  | comment _ _ inductionHypothesis => exact inductionHypothesis

/-- Every tree that is made by adding nodes is linked. -/
theorem linked (grown : Grown tree made) : tree.Linked := by
  induction grown with
  | empty source => exact .empty source
  | push grown kind span parent known inductionHypothesis =>
    refine inductionHypothesis.push kind span ?_
    intro id isParent
    have answered := known id isParent
    rw [grown.made_eq] at answered
    exact List.mem_range.1 answered
  | comment _ comment inductionHypothesis =>
    exact ⟨inductionHypothesis.parent_lt, inductionHypothesis.mem_children_iff,
      inductionHypothesis.increasing⟩

end Grown

/-! ## The walk -/

/-- A walk through some nodes that stand at a depth, and through all that is below them. It comes
to a node, to what is below it, and then to the next one; what it comes to is listed with its
depth. -/
inductive Walk (tree : Tree) : (depth : Nat) → (ids : List Nat) → List (Nat × Nat) → Prop where
  | done (depth : Nat) : Walk tree depth [] []
  | visit {depth id : Nat} {rest : List Nat} {below others : List (Nat × Nat)}
      (down : Walk tree (depth + 1) (tree.childrenOf id) below)
      (on : Walk tree depth rest others) :
      Walk tree depth (id :: rest) ((depth, id) :: (below ++ others))

/-- Whether one node is the parent that another one names. -/
def Names (tree : Tree) (child parent : Nat) : Prop := tree.parent? child = some parent

open Relation

namespace Walk

variable {depth : Nat} {ids : List Nat} {visited : List (Nat × Nat)}

/-- Two walks through the same nodes come to the same. -/
theorem unique (walk : Walk tree depth ids visited) {other : List (Nat × Nat)}
    (again : Walk tree depth ids other) : other = visited := by
  induction walk generalizing other with
  | done => cases again with | done => rfl
  | visit _ _ downHypothesis onHypothesis =>
    cases again with
    | visit down on => rw [downHypothesis down, onHypothesis on]

/-- A walk ends, for parents are numbered before their children. -/
theorem exists_of_linked (linked : tree.Linked) (levels : Nat) (depth : Nat) (ids : List Nat)
    (inside : ∀ id ∈ ids, id < tree.size ∧ tree.size ≤ id + levels) :
    ∃ visited, Walk tree depth ids visited := by
  -- The numbers left for those below a node are fewer than those left for the node.
  induction levels generalizing depth ids with
  | zero =>
    cases ids with
    | nil => exact ⟨[], .done depth⟩
    | cons id rest =>
      have bounds := inside id List.mem_cons_self
      omega
  | succ levels inductionHypothesis =>
    induction ids with
    | nil => exact ⟨[], .done depth⟩
    | cons id rest restHypothesis =>
      have bounds := inside id List.mem_cons_self
      obtain ⟨below, down⟩ := inductionHypothesis (depth + 1) (tree.childrenOf id) (by
        intro child listed
        have behind := linked.parent_lt child id ((linked.mem_children_iff id child).1 listed)
        exact ⟨linked.lt_size listed, by omega⟩)
      obtain ⟨others, on⟩ := restHypothesis fun other member =>
        inside other (List.mem_cons_of_mem _ member)
      exact ⟨_, .visit down on⟩

/-- A walk comes to the nodes it sets out from and to all that descend from them. -/
theorem mem_iff (linked : tree.Linked) (walk : Walk tree depth ids visited) (id : Nat) :
    id ∈ visited.map Prod.snd ↔ ∃ first ∈ ids, ReflTransGen tree.Names id first := by
  induction walk with
  | done => simp
  | @visit depth first rest below others _ _ downHypothesis onHypothesis =>
    rw [List.map_cons, List.mem_cons, List.map_append, List.mem_append, downHypothesis,
      onHypothesis]
    have descends : ReflTransGen tree.Names id first ↔
        id = first ∨ ∃ child ∈ tree.childrenOf first, ReflTransGen tree.Names id child := by
      rw [ReflTransGen.cases_tail_iff]
      refine or_congr eq_comm (exists_congr fun child => ?_)
      rw [linked.mem_children_iff]
      exact and_comm
    simp only [List.mem_cons, exists_eq_or_imp, descends, or_assoc]

end Walk

namespace Linked

theorem le_of_descends (linked : tree.Linked) {id first : Nat}
    (descends : ReflTransGen tree.Names id first) : first ≤ id := by
  induction descends with
  | refl => exact Nat.le_refl _
  | tail _ named inductionHypothesis =>
    have before := linked.parent_lt _ _ named
    omega

/-- Nothing descends from two nodes that have the same parent, or none. -/
theorem eq_of_descends (linked : tree.Linked) {id left right : Nat}
    (siblings : tree.parent? left = tree.parent? right)
    (fromLeft : ReflTransGen tree.Names id left) (fromRight : ReflTransGen tree.Names id right) :
    left = right := by
  -- No node descends from one of its siblings, whose number would be smaller than their parent's.
  have apart : ∀ first second, tree.parent? first = tree.parent? second →
      ReflTransGen tree.Names first second → first = second := by
    intro first second same descends
    rcases ReflTransGen.cases_head descends with equal | ⟨parent, named, further⟩
    · exact equal
    · have above := linked.le_of_descends further
      have below := linked.parent_lt second parent (same.symm.trans named)
      omega
  have unique : Relator.RightUnique tree.Names := fun child parent other named namedToo =>
    Option.some.inj (named.symm.trans namedToo)
  rcases ReflTransGen.total_of_right_unique unique fromLeft fromRight with descends | descends
  · exact apart left right siblings descends
  · exact (apart right left siblings.symm descends).symm

end Linked

namespace Walk

variable {depth : Nat} {ids : List Nat} {visited : List (Nat × Nat)}

/-- A walk through different nodes that have the same parent, or none, comes to no node twice. -/
theorem nodup (linked : tree.Linked) (walk : Walk tree depth ids visited) {parent : Option Nat}
    (siblings : ∀ id ∈ ids, tree.parent? id = parent) (apart : ids.Nodup) :
    (visited.map Prod.snd).Nodup := by
  induction walk generalizing parent with
  | done => exact .nil
  | @visit depth first rest below others down on downHypothesis onHypothesis =>
    obtain ⟨firstApart, restApart⟩ := List.nodup_cons.1 apart
    have isBelow := fun id => down.mem_iff linked id
    have isOther := fun id => on.mem_iff linked id
    have belowFirst : ∀ id ∈ below.map Prod.snd, ReflTransGen tree.Names id first ∧ first < id := by
      intro id member
      obtain ⟨child, listed, descends⟩ := (isBelow id).1 member
      have named := (linked.mem_children_iff first child).1 listed
      have behind := linked.parent_lt child first named
      have above := linked.le_of_descends descends
      exact ⟨descends.tail named, by omega⟩
    have notOther : ∀ id ∈ others.map Prod.snd, ¬ ReflTransGen tree.Names id first := by
      intro id member descends
      obtain ⟨other, inRest, descendsToo⟩ := (isOther id).1 member
      have same := (siblings first List.mem_cons_self).trans
        (siblings other (List.mem_cons_of_mem _ inRest)).symm
      rw [linked.eq_of_descends same descends descendsToo] at firstApart
      exact firstApart inRest
    rw [List.map_cons, List.map_append, List.nodup_cons, List.mem_append, List.nodup_append]
    refine ⟨?_, ?_, ?_, ?_⟩
    · rintro (inBelow | inOthers)
      · exact Nat.lt_irrefl _ (belowFirst first inBelow).2
      · exact notOther first inOthers .refl
    · exact downHypothesis (fun child listed => (linked.mem_children_iff first child).1 listed)
        ((linked.increasing first).imp Nat.ne_of_lt)
    · exact onHypothesis (fun id member => siblings id (List.mem_cons_of_mem _ member)) restApart
    · rintro id inBelow _ inOthers rfl
      exact notOther id inOthers (belowFirst id inBelow).1

end Walk

/-! ## From the roots -/

theorem mem_roots_iff {id : Nat} : id ∈ tree.roots ↔ id < tree.size ∧ tree.parent? id = none := by
  unfold roots parent?
  rw [List.mem_filter, List.mem_range]
  refine and_congr_right fun inside => ?_
  cases found : tree.node? id with
  | none =>
    have outside := node?_eq_none_iff.1 found
    omega
  | some node =>
    show node.parent.isNone = true ↔ node.parent = none
    exact Option.isNone_iff_eq_none

/-- Every node descends from a root. -/
theorem Linked.exists_root (linked : tree.Linked) (id : Nat) (inside : id < tree.size) :
    ∃ root ∈ tree.roots, ReflTransGen tree.Names id root := by
  induction id using Nat.strongRecOn with
  | ind id inductionHypothesis =>
    cases named : tree.parent? id with
    | none => exact ⟨id, mem_roots_iff.2 ⟨inside, named⟩, .refl⟩
    | some parent =>
      have before := linked.parent_lt id parent named
      obtain ⟨root, isRoot, descends⟩ := inductionHypothesis parent before (by omega)
      exact ⟨root, isRoot, descends.head named⟩

/-- A walk from the roots comes to every node, and to none twice. -/
theorem Walk.perm (linked : tree.Linked) {visited : List (Nat × Nat)}
    (walk : Walk tree 0 tree.roots visited) :
    (visited.map Prod.snd).Perm (List.range tree.size) := by
  have siblings : ∀ root ∈ tree.roots, tree.parent? root = none :=
    fun root isRoot => (mem_roots_iff.1 isRoot).2
  have apart := walk.nodup linked siblings (List.nodup_range.filter _)
  refine (List.perm_ext_iff_of_nodup apart List.nodup_range).2 fun id => ?_
  rw [walk.mem_iff linked, List.mem_range]
  constructor
  · rintro ⟨root, isRoot, descends⟩
    rcases ReflTransGen.cases_head descends with rfl | ⟨parent, named, -⟩
    · exact (mem_roots_iff.1 isRoot).1
    · exact linked.lt_size ((linked.mem_children_iff parent id).2 named)
  · exact linked.exists_root id

/-! ## The listing -/

/-- How far the line of a node is indented at a depth. -/
def indentation : Nat → String
  | 0 => ""
  | depth + 1 => indentation depth ++ "  "

/-- The line for a node that a walk comes to. -/
def line (tree : Tree) (place : Nat × Nat) : String :=
  indentation place.1 ++ ((tree.node? place.2).map fun node =>
    Inspection.label node.kind ++ " " ++ Inspection.bounds node.span).getD ""

/-- The listing shows what a walk comes to, if it may go as many generations down as there are
numbers left. -/
theorem Walk.flatMap_nodeLines (linked : tree.Linked) {depth : Nat} {ids : List Nat}
    {visited : List (Nat × Nat)} (walk : Walk tree depth ids visited) (levels : Nat)
    (inside : ∀ id ∈ ids, id < tree.size ∧ tree.size ≤ id + levels) :
    ids.flatMap (Inspection.nodeLines tree (indentation depth) levels)
      = visited.map tree.line := by
  induction walk generalizing levels with
  | done => rfl
  | @visit depth id rest below others _ _ downHypothesis onHypothesis =>
    have bounds := inside id List.mem_cons_self
    have restLines := onHypothesis levels fun other member =>
      inside other (List.mem_cons_of_mem _ member)
    cases levels with
    | zero => omega
    | succ levels =>
      have belowLines := downHypothesis levels (by
        intro child listed
        have behind := linked.parent_lt child id ((linked.mem_children_iff id child).1 listed)
        exact ⟨linked.lt_size listed, by omega⟩)
      cases found : tree.node? id with
      | none =>
        have outside := node?_eq_none_iff.1 found
        omega
      | some node =>
        have childrenEq : tree.childrenOf id = node.children := by
          unfold childrenOf
          rw [found]
          rfl
        rw [childrenEq] at belowLines
        rw [List.flatMap_cons, restLines, List.map_cons, List.map_append, ← belowLines,
          Inspection.nodeLines, found]
        simp [line, found, indentation, String.append_assoc]

/-- Every tree that is made by adding nodes: the numbers that were answered are those of its nodes;
parents are numbered before their children, a node is listed by the parent that it names and by no
other one, and children are listed in the order of their numbers. There is one walk from the roots
down; it comes to every node once, and the listing of the tree shows what it comes to. -/
theorem Grown.walk_visits_each_once {made : List Nat} (grown : Grown tree made) :
    made = List.range tree.size ∧ tree.Linked
      ∧ ∃ visited, Walk tree 0 tree.roots visited
        ∧ (∀ other, Walk tree 0 tree.roots other → other = visited)
        ∧ (visited.map Prod.snd).Perm made
        ∧ tree.roots.flatMap (Inspection.nodeLines tree "" tree.size)
          = visited.map tree.line := by
  have linked := grown.linked
  have bounds : ∀ root ∈ tree.roots, root < tree.size ∧ tree.size ≤ root + tree.size :=
    fun root isRoot => ⟨(mem_roots_iff.1 isRoot).1, Nat.le_add_left _ _⟩
  obtain ⟨visited, walk⟩ := Walk.exists_of_linked linked tree.size 0 tree.roots bounds
  refine ⟨grown.made_eq, linked, visited, walk, fun other => walk.unique, ?_, ?_⟩
  · rw [grown.made_eq]
    exact walk.perm linked
  · exact walk.flatMap_nodeLines linked tree.size bounds

/-- Of four nodes the third is a root, made before the fourth, which descends from the first. -/
theorem Grown.walk_visits_each_once_two_roots :
    ∃ tree made, Grown tree made ∧ made = [0, 1, 2, 3] ∧ tree.roots = [0, 2]
      ∧ Walk tree 0 tree.roots [(0, 0), (1, 1), (2, 3), (0, 2)]
      ∧ tree.roots.flatMap (Inspection.nodeLines tree "" tree.size)
        = ["container [0..9]", "  fragment [1..8]", "    text \"a\" [3..4]",
          "container [0..0]"] := by
  have first := (Grown.empty "\x7b<>a</>\x7d".toList).push .container ⟨0, 9⟩ none (by decide)
  have second := first.push (.fragment ⟨⟨1, 3⟩, some ⟨4, 7⟩⟩) ⟨1, 8⟩ (some 0) (by decide)
  have third := second.push .container ⟨0, 0⟩ none (by decide)
  have grown := third.push (.text ['a']) ⟨3, 4⟩ (some 1) (by decide)
  obtain ⟨answered, -, visited, walk, unique, -, listing⟩ := Grown.walk_visits_each_once grown
  have known := unique [(0, 0), (1, 1), (2, 3), (0, 2)] <|
    @Walk.visit _ 0 0 [2] [(1, 1), (2, 3)] [(0, 2)]
      (@Walk.visit _ 1 1 [] [(2, 3)] [] (@Walk.visit _ 2 3 [] [] [] (.done 3) (.done 2)) (.done 1))
      (@Walk.visit _ 0 2 [] [] [] (.done 1) (.done 0))
  rw [← known] at walk listing
  exact ⟨_, _, grown, answered, by decide, walk, listing.trans (by decide)⟩

end FragmentLint.Tree
