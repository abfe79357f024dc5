import FragmentLint.Markup.Tree

/-!
Contract: markup as nested nodes, before it is numbered.

Beside its children a node may hold markup that was written inside it but is no part of its
content: the elements in its attributes, or in the expression that it is. Such markup becomes roots
of its own, numbered after the node and before its children.
-/

namespace FragmentLint

/-- A node with what belongs to it. -/
inductive Outline where
  | node (kind : NodeKind) (span : Span) (aside children : List Outline)

namespace Outline

def kind : Outline → NodeKind
  | node kind _ _ _ => kind

def span : Outline → Span
  | node _ span _ _ => span

/-- The markup inside a node that is no part of its content. -/
def aside : Outline → List Outline
  | node _ _ aside _ => aside

def children : Outline → List Outline
  | node _ _ _ children => children

mutual
/-- Adds an outline to a tree, under a parent if one is given. -/
def pushTo (tree : Tree) (parent : Option Nat) : Outline → Tree
  | .node kind span aside children =>
    let (grown, id) := tree.push kind span parent
    pushAll (pushAll grown none aside) (some id) children

/-- Adds several outlines to a tree, one after the other. -/
def pushAll (tree : Tree) (parent : Option Nat) : List Outline → Tree
  | [] => tree
  | first :: rest => pushAll (pushTo tree parent first) parent rest
end

end Outline

end FragmentLint
