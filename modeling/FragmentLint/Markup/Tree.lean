import FragmentLint.Markup.Node
import FragmentLint.StableSort

/-!
Contract: trees of markup nodes that are named by their position in the order of their making.

A node names its parent and its children, so a tree can be walked both ways. Trees only grow: a new
node may be hung under an existing one. Main statements: a push answers the number of nodes there
were (`push_id`), adds one node (`size_push`), and changes no node but the parent it names
(`node?_push_of_ne`).
-/

namespace FragmentLint

/-- A node with its place in a tree. -/
structure Node where
  kind : NodeKind
  span : Span
  parent : Option Nat
  children : List Nat
deriving DecidableEq, Repr, Inhabited

/-- A span that was to be cut out of a text does not delimit whole characters of it. -/
structure BadSlice where
  span : Span
deriving DecidableEq, Repr, Inhabited

/-- The markup of a source text. -/
structure Tree where
  source : Text
  nodes : Array Node
  comments : List Comment
deriving Repr, Inhabited

namespace Tree

def empty (source : Text) : Tree := ⟨source, #[], []⟩

def size (tree : Tree) : Nat := tree.nodes.size

def node? (tree : Tree) (id : Nat) : Option Node := tree.nodes[id]?

/-- Lists a new child last among the children of a node. -/
def adopt (nodes : Array Node) (parent child : Nat) : Array Node :=
  nodes.modify parent fun node => { node with children := node.children ++ [child] }

/-- Adds a node, under a parent if one is given, and answers its number. -/
def push (tree : Tree) (kind : NodeKind) (span : Span) (parent : Option Nat) : Tree × Nat :=
  let id := tree.nodes.size
  let grown := tree.nodes.push ⟨kind, span, parent, []⟩
  let nodes := match parent with
    | some parent => adopt grown parent id
    | none => grown
  ({ tree with nodes }, id)

def pushComment (tree : Tree) (comment : Comment) : Tree :=
  { tree with comments := tree.comments ++ [comment] }

/-- The source between the ends of a span; `none` if the span does not delimit whole characters. -/
def text? (tree : Tree) (span : Span) : Option Text :=
  Text.slice? tree.source span.start span.stop

def slice (tree : Tree) (span : Span) : Except BadSlice Text :=
  match tree.text? span with
  | some text => .ok text
  | none => .error ⟨span⟩

def roots (tree : Tree) : List Nat :=
  (List.range tree.size).filter fun id => (tree.node? id).any (·.parent.isNone)

def startOf (tree : Tree) (id : Nat) : Nat := ((tree.node? id).map (·.span.start)).getD 0

/-- The numbers of the elements and fragments, in the order in which they start. -/
def elements (tree : Tree) : List Nat :=
  StableSort.sort (fun left right => tree.startOf left ≤ tree.startOf right)
    ((List.range tree.size).filter fun id => (tree.node? id).any (·.kind.isTagged))

/-- A new node is numbered by how many nodes there were. -/
@[simp] theorem push_id (tree : Tree) (kind : NodeKind) (span : Span) (parent : Option Nat) :
    (tree.push kind span parent).2 = tree.size := rfl

@[simp] theorem size_push (tree : Tree) (kind : NodeKind) (span : Span) (parent : Option Nat) :
    (tree.push kind span parent).1.size = tree.size + 1 := by
  cases parent <;> simp [push, size, adopt]

@[simp] theorem source_push (tree : Tree) (kind : NodeKind) (span : Span) (parent : Option Nat) :
    (tree.push kind span parent).1.source = tree.source := rfl

/-- A push changes no older node but the parent it names. -/
theorem node?_push_of_ne (tree : Tree) (kind : NodeKind) (span : Span) (parent : Option Nat)
    {id : Nat} (older : id < tree.size) (other : parent ≠ some id) :
    (tree.push kind span parent).1.node? id = tree.node? id := by
  have inside : id < tree.nodes.size := older
  have pushed : (tree.nodes.push ⟨kind, span, parent, []⟩)[id]? = tree.nodes[id]? := by
    rw [Array.getElem?_push]
    simp [Nat.ne_of_lt inside]
  cases parent with
  | none => exact pushed
  | some parent =>
    have different : parent ≠ id := fun equal => other (congrArg some equal)
    simp only [push, node?, adopt, Array.getElem?_modify, different, if_false]
    exact pushed

end Tree

end FragmentLint
