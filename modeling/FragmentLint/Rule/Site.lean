import FragmentLint.Markup.Tree

/-!
Contract: what the rule looks at when it judges a node.

A verdict depends on the node, on its parent, on its children, and on the first child of each of
these, and on nothing else in the tree.
-/

namespace FragmentLint

/-- A child as the rule sees it. -/
structure Child where
  kind : NodeKind
  /-- The first of the child's own children. -/
  first : Option NodeKind
deriving DecidableEq, Repr

/-- A node with its surroundings. -/
structure Site where
  kind : NodeKind
  span : Span
  parent : Option NodeKind
  children : List Child
deriving DecidableEq, Repr

namespace Tree

def kind? (tree : Tree) (id : Nat) : Option NodeKind := (tree.node? id).map (·.kind)

def child? (tree : Tree) (id : Nat) : Option Child :=
  (tree.node? id).map fun node => ⟨node.kind, node.children.head?.bind tree.kind?⟩

def site? (tree : Tree) (id : Nat) : Option Site :=
  (tree.node? id).map fun node =>
    ⟨node.kind, node.span, node.parent.bind tree.kind?, node.children.filterMap tree.child?⟩

end Tree

end FragmentLint
