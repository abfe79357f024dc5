import FragmentLint.Dialect
import FragmentLint.Grammar.Construct
import FragmentLint.Span
import FragmentLint.Text

/-!
Contract: concrete trees, as a parser hands them out.

The parser is not part of this library: it is a parameter, `SyntaxParser`, of everything that reads
a source. It answers a tree for every text, also for one that is not well formed; such a tree holds
nodes for what could not be read or was missing.

Owns: the nodes of a concrete tree, looking them up, and the first error in a tree.
Does not own: what is guaranteed of a parser, and what the markup in a tree means.
-/

namespace FragmentLint

/-- The roles in its parent by which a node is looked up. -/
inductive Field where
  | name | openTag | closeTag | function | arguments | object | property | optionalChain
deriving DecidableEq, Repr, Inhabited

/-- What a parser tells about a node, aside from its children. -/
structure NodeInfo where
  kind : Grammar.Construct
  /-- Words and signs that the grammar spells out have no names of their own. -/
  isNamed : Bool
  /-- Whether the parser made the node up to go on. -/
  isMissing : Bool
  field : Option Field
  span : Span
deriving DecidableEq, Repr, Inhabited

/-- A node of a concrete tree. -/
inductive SyntaxNode where
  | mk (info : NodeInfo) (children : List SyntaxNode)
deriving Inhabited

namespace SyntaxNode

def info : SyntaxNode → NodeInfo
  | mk info _ => info

def children : SyntaxNode → List SyntaxNode
  | mk _ children => children

def kind (node : SyntaxNode) : Grammar.Construct := node.info.kind

def isNamed (node : SyntaxNode) : Bool := node.info.isNamed

def isMissing (node : SyntaxNode) : Bool := node.info.isMissing

def field (node : SyntaxNode) : Option Field := node.info.field

def span (node : SyntaxNode) : Span := node.info.span

@[simp] theorem info_mk (info : NodeInfo) (children : List SyntaxNode) :
    (mk info children).info = info := rfl

@[simp] theorem children_mk (info : NodeInfo) (children : List SyntaxNode) :
    (mk info children).children = children := rfl

mutual
protected def decEq : (left right : SyntaxNode) → Decidable (left = right)
  | mk info children, mk info' children' =>
    if same : info = info' then
      match SyntaxNode.decEqAll children children' with
      | isTrue sameChildren => isTrue (same ▸ sameChildren ▸ rfl)
      | isFalse different => isFalse fun equal => different (SyntaxNode.mk.inj equal).2
    else isFalse fun equal => same (SyntaxNode.mk.inj equal).1

protected def decEqAll : (left right : List SyntaxNode) → Decidable (left = right)
  | [], [] => isTrue rfl
  | [], _ :: _ => isFalse nofun
  | _ :: _, [] => isFalse nofun
  | first :: rest, first' :: rest' =>
    match SyntaxNode.decEq first first', SyntaxNode.decEqAll rest rest' with
    | isTrue same, isTrue sameRest => isTrue (same ▸ sameRest ▸ rfl)
    | isFalse different, _ => isFalse fun equal => different (List.cons.inj equal).1
    | _, isFalse different => isFalse fun equal => different (List.cons.inj equal).2
end

instance : DecidableEq SyntaxNode := SyntaxNode.decEq

mutual
/-- The number of nodes in a tree. -/
def count : SyntaxNode → Nat
  | mk _ children => 1 + countAll children

/-- The number of nodes in several trees. -/
def countAll : List SyntaxNode → Nat
  | [] => 0
  | first :: rest => count first + countAll rest
end

theorem count_pos (node : SyntaxNode) : 0 < node.count := by
  cases node with
  | mk info children =>
    rw [count]
    omega

theorem count_eq (node : SyntaxNode) : node.count = 1 + countAll node.children := by
  cases node with
  | mk info children => rw [count, children_mk]

@[simp] theorem countAll_nil : countAll [] = 0 := by rw [countAll]

@[simp] theorem countAll_cons (first : SyntaxNode) (rest : List SyntaxNode) :
    countAll (first :: rest) = first.count + countAll rest := by rw [countAll]

@[simp] theorem countAll_append (left right : List SyntaxNode) :
    countAll (left ++ right) = countAll left + countAll right := by
  induction left with
  | nil => simp
  | cons first rest inductionHypothesis => simp [inductionHypothesis, Nat.add_assoc]

/-- A member of a list has no more nodes than the whole. -/
theorem count_le_of_mem {node : SyntaxNode} {nodes : List SyntaxNode} (member : node ∈ nodes) :
    node.count ≤ countAll nodes := by
  induction nodes with
  | nil => cases member
  | cons first rest inductionHypothesis =>
    rw [countAll_cons]
    rcases List.mem_cons.1 member with rfl | inRest
    · omega
    · exact Nat.le_trans (inductionHypothesis inRest) (Nat.le_add_left _ _)

theorem countAll_filter_le (test : SyntaxNode → Bool) (nodes : List SyntaxNode) :
    countAll (nodes.filter test) ≤ countAll nodes := by
  induction nodes with
  | nil => simp
  | cons first rest inductionHypothesis =>
    rw [List.filter_cons]
    split
    · simp only [countAll_cons]
      omega
    · rw [countAll_cons]
      omega

/-! ## Looking up children -/

def namedChildren (node : SyntaxNode) : List SyntaxNode := node.children.filter (·.isNamed)

/-- The first child in a role. -/
def childByField? (node : SyntaxNode) (field : Field) : Option SyntaxNode :=
  node.children.find? (·.field == some field)

/-- The first named child of a kind. -/
def childOfKind? (node : SyntaxNode) (kind : Grammar.Construct) : Option SyntaxNode :=
  node.namedChildren.find? (·.kind == kind)

/-- The first named child that is no comment. -/
def expression? (node : SyntaxNode) : Option SyntaxNode :=
  node.namedChildren.find? (·.kind != .comment)

theorem mem_children_of_mem_namedChildren {node child : SyntaxNode}
    (member : child ∈ node.namedChildren) : child ∈ node.children :=
  (List.mem_filter.1 member).1

theorem countAll_namedChildren_lt (node : SyntaxNode) :
    countAll node.namedChildren < node.count := by
  have fewer := countAll_filter_le (·.isNamed) node.children
  have total := node.count_eq
  rw [namedChildren]
  omega

/-- A child has fewer nodes than its parent. -/
theorem count_lt_of_mem {node child : SyntaxNode} (member : child ∈ node.children) :
    child.count < node.count := by
  have fewer := count_le_of_mem member
  have total := node.count_eq
  omega

theorem mem_of_childByField? {node child : SyntaxNode} {field : Field}
    (found : node.childByField? field = some child) : child ∈ node.children :=
  List.mem_of_find?_eq_some found

theorem mem_of_childOfKind? {node child : SyntaxNode} {kind : Grammar.Construct}
    (found : node.childOfKind? kind = some child) : child ∈ node.children :=
  mem_children_of_mem_namedChildren (List.mem_of_find?_eq_some found)

theorem mem_of_expression? {node child : SyntaxNode} (found : node.expression? = some child) :
    child ∈ node.children :=
  mem_children_of_mem_namedChildren (List.mem_of_find?_eq_some found)

/-! ## Errors -/

/-- Whether a node stands for a stretch of text that could not be read. -/
def isError (node : SyntaxNode) : Bool := node.kind == .error

mutual
/-- Whether anything in a tree could not be read or is missing. -/
def hasError : SyntaxNode → Bool
  | mk info children => info.kind == .error || info.isMissing || anyHasError children

def anyHasError : List SyntaxNode → Bool
  | [] => false
  | first :: rest => hasError first || anyHasError rest
end

mutual
/-- The first node of a tree that could not be read or is missing. -/
def firstError? : SyntaxNode → Option SyntaxNode
  | mk info children =>
    if (mk info children).isError || info.isMissing then some (mk info children)
    else firstErrorIn? children

/-- The first such node in several trees. -/
def firstErrorIn? : List SyntaxNode → Option SyntaxNode
  | [] => none
  | child :: rest =>
    if child.hasError || child.isMissing then
      match firstError? child with
      | some found => some found
      | none => firstErrorIn? rest
    else firstErrorIn? rest
end

/-- The byte offset at which a tree that has an error goes wrong. -/
def errorOffset (root : SyntaxNode) : Nat :=
  (root.firstError?.map (·.span.start)).getD root.span.start

end SyntaxNode

/-- A parser for both dialects. Its answer is `none` if it gives up. -/
class SyntaxParser where
  parse? : Dialect → Text → Option SyntaxNode

end FragmentLint
