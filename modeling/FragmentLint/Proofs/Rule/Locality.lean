import FragmentLint.Proofs.Markup.Arena
import FragmentLint.Proofs.Rule.Shorthand

/-!
Contract: how far away from a node the rule looks.

A verdict is made of the node, the kind of its parent, and its children with the first child of each. A
push lists one more child in one node. So it shows in that node, in the parent of that node if the new
child is a first one, and in no other node that was there before (`site?_push`). Main statement:
`Grown.verdict?_push`.

Does not own: which trees pushes make.
-/

namespace FragmentLint.Tree

variable {tree : Tree} {kind : NodeKind} {span : Span} {parent : Option Nat} {id : Nat}

/-- A push leaves the kinds of the older nodes alone. -/
theorem kind?_push (known : ∀ above ∈ parent, above < tree.size) (older : id < tree.size) :
    (tree.push kind span parent).1.kind? id = tree.kind? id := by
  unfold kind?
  rw [node?_push known, if_neg (Nat.ne_of_lt older)]
  cases tree.node? id with
  | none => rfl
  | some node =>
    show some (if _ then _ else _ : Node).kind = some node.kind
    split <;> rfl

theorem childrenOf_eq {node : Node} (found : tree.node? id = some node) :
    tree.childrenOf id = node.children := by
  unfold childrenOf
  rw [found]
  rfl

theorem parent?_eq {node : Node} (found : tree.node? id = some node) :
    tree.parent? id = node.parent := by
  unfold parent?
  rw [found]
  rfl

namespace Linked

theorem first_lt_size (linked : tree.Linked) {node : Node} (found : tree.node? id = some node) :
    ∀ first ∈ node.children.head?, first < tree.size := by
  intro first isFirst
  have listed : first ∈ tree.childrenOf id := by
    rw [childrenOf_eq found]
    exact List.mem_of_head? isFirst
  exact linked.lt_size listed

theorem parent_lt_size (linked : tree.Linked) {node : Node} (found : tree.node? id = some node) :
    ∀ above ∈ node.parent, above < tree.size := by
  intro above isParent
  rw [← parent?_eq found] at isParent
  have listed := (linked.mem_children_iff above id).2 isParent
  exact Nat.lt_trans (linked.parent_lt id above isParent) (linked.lt_size listed)

/-- As a child, a node looks as before unless it gets its first child. -/
theorem child?_push (linked : tree.Linked) (known : ∀ above ∈ parent, above < tree.size)
    (older : id < tree.size) (settled : parent = some id → tree.childrenOf id ≠ []) :
    (tree.push kind span parent).1.child? id = tree.child? id := by
  unfold child?
  rw [node?_push known, if_neg (Nat.ne_of_lt older)]
  cases found : tree.node? id with
  | none => rfl
  | some node =>
    have firstKind : node.children.head?.bind (tree.push kind span parent).1.kind?
        = node.children.head?.bind tree.kind? := by
      cases first : node.children.head? with
      | none => rfl
      | some child => exact kind?_push known (linked.first_lt_size found child first)
    rw [Option.map_some, Option.map_some, Option.map_some]
    by_cases isParent : parent = some id
    · have occupied := settled isParent
      rw [childrenOf_eq found] at occupied
      rw [if_pos isParent]
      show some (⟨node.kind, (node.children ++ [tree.size]).head?.bind _⟩ : Child) = _
      rw [List.head?_append_of_ne_nil _ occupied, firstKind]
    · rw [if_neg isParent, firstKind]

/-- The surroundings of an older node stay as they are, unless it is the node under which the new one is
hung, or the parent of that node and this had no children yet. -/
theorem site?_push (linked : tree.Linked) (known : ∀ above ∈ parent, above < tree.size)
    (older : id < tree.size) (other : parent ≠ some id)
    (settled : ∀ above ∈ parent, tree.parent? above = some id → tree.childrenOf above ≠ []) :
    (tree.push kind span parent).1.site? id = tree.site? id := by
  unfold site?
  rw [node?_push_of_ne tree kind span parent older other]
  cases found : tree.node? id with
  | none => rfl
  | some node =>
    have parentKind : node.parent.bind (tree.push kind span parent).1.kind?
        = node.parent.bind tree.kind? := by
      cases isParent : node.parent with
      | none => rfl
      | some above => exact kind?_push known (linked.parent_lt_size found above isParent)
    have children : node.children.filterMap (tree.push kind span parent).1.child?
        = node.children.filterMap tree.child? := by
      apply List.filterMap_congr
      intro child listed
      rw [← childrenOf_eq found] at listed
      refine linked.child?_push known (linked.lt_size listed) ?_
      intro isParent
      exact settled child isParent ((linked.mem_children_iff id child).1 listed)
    rw [Option.map_some, Option.map_some, parentKind, children]

end Linked

/-- What is cut out of the source does not depend on the nodes. -/
theorem removal_push (pragmas : Pragmas) (site : Site) :
    (tree.push kind span parent).1.removal pragmas site = tree.removal pragmas site := rfl

/-- Let a node of any kind be hung under a node of a tree, or be made a root. Then every older node but
the one that it is hung under and the parent of that one is judged as before: for the same reasons, as
removable or not, and with the same edit or the same failure to cut it out. -/
theorem Grown.verdict?_push {made : List Nat} (grown : Grown tree made) (kind : NodeKind)
    (span : Span) (known : ∀ above ∈ parent, above ∈ made) (pragmas : Pragmas) (older : id ∈ made)
    (notParent : parent ≠ some id) (notAbove : parent.bind tree.parent? ≠ some id) :
    ∃ verdict, tree.verdict? pragmas id = some verdict
      ∧ (tree.push kind span parent).1.verdict? pragmas id = some verdict := by
  rw [grown.made_eq] at known older
  have inside : id < tree.size := List.mem_range.1 older
  have unchanged : (tree.push kind span parent).1.site? id = tree.site? id := by
    refine grown.linked.site?_push (fun above isParent => List.mem_range.1 (known above isParent))
      inside notParent ?_
    intro above isParent isAbove
    refine absurd ?_ notAbove
    rw [Option.mem_def.1 isParent]
    exact isAbove
  obtain ⟨node, found⟩ := Option.ne_none_iff_exists'.1 fun missing =>
    Nat.not_le_of_lt inside (node?_eq_none_iff.1 missing)
  unfold verdict?
  rw [unchanged]
  simp only [removal_push, site?, found, Option.map_some]
  exact ⟨_, rfl, rfl⟩

/-- Braces in a fragment in a fragment are given the nothing that stands in them. The outer fragment is
judged as before. The inner one, which is the parent of the braces, is not. -/
theorem Grown.verdict?_push_into_braces :
    ∃ tree, Grown tree [0, 1, 2] ∧ 2 ∈ [0, 1, 2] ∧ 0 ∈ [0, 1, 2]
      ∧ some 2 ≠ some 0 ∧ (some 2).bind tree.parent? ≠ some 0
      ∧ (tree.push .empty ⟨5, 5⟩ (some 2)).1.verdict? default 0
        = some ⟨[.needsMoreChildren], true, .ok (some ⟨⟨0, 12⟩, "<>\x7b\x7d</>".toList⟩)⟩
      ∧ tree.verdict? default 1
        = some ⟨[], true, .ok (some ⟨⟨2, 9⟩, "\x7b\x7d".toList⟩)⟩
      ∧ (tree.push .empty ⟨5, 5⟩ (some 2)).1.verdict? default 1
        = some ⟨[.needsMoreChildren], true, .ok (some ⟨⟨2, 9⟩, "<></>".toList⟩)⟩ := by
  have first := (Grown.empty "<><>\x7b\x7d</></>".toList).push
    (.fragment ⟨⟨0, 2⟩, some ⟨9, 12⟩⟩) ⟨0, 12⟩ none (by decide)
  have second := first.push (.fragment ⟨⟨2, 4⟩, some ⟨6, 9⟩⟩) ⟨2, 9⟩ (some 0) (by decide)
  have grown := second.push .container ⟨4, 6⟩ (some 1) (by decide)
  obtain ⟨verdict, before, after⟩ := Grown.verdict?_push grown .empty ⟨5, 5⟩
    (show ∀ above ∈ some 2, above ∈ [0, 1, 2] by decide) default (show 0 ∈ [0, 1, 2] by decide)
    (by decide) (by decide)
  rw [← before] at after
  exact ⟨_, grown, by decide, by decide, by decide, by decide, after.trans (by decide), by decide,
    by decide⟩

end FragmentLint.Tree
