import FragmentLint.Markup.SyntaxNode
import FragmentLint.Markup.Tree

/-!
Contract: the markup in a concrete tree.

Comments are collected first, with a stack. Then the tree is walked for markup. Where it is found
outside of other markup, it is lowered under a root of its own, which stands for the node around it;
parentheses are looked through. White space between tags is in no concrete tree, so every gap
between the elements and braces there becomes one text.

A slice that does not fall on whole characters ends the lowering.

Owns: lowering, and the names, attributes and kinds of expressions that it finds.
Does not own: what is guaranteed of the concrete tree.
-/

namespace FragmentLint

namespace SyntaxNode

def isMarkup (node : SyntaxNode) : Bool :=
  node.kind == .jsxElement || node.kind == .jsxSelfClosing

/-- Whether a node may stand between two tags as a child of its own. -/
def isStructural (node : SyntaxNode) : Bool := node.isMarkup || node.kind == .jsxExpression

/-- Whether a child of a tag is one of its attributes; a spread is an expression in braces. -/
def isAttribute (node : SyntaxNode) : Bool :=
  node.kind == .jsxAttribute || node.kind == .jsxExpression

def isName (node : SyntaxNode) : Bool :=
  node.kind == .identifier || node.kind == .member || node.kind == .nestedIdentifier
    || node.kind == .jsxNamespaceName

/-- The name of a tag; a tag of a fragment has none. -/
def tagName? (tag : SyntaxNode) : Option SyntaxNode :=
  (tag.childByField? .name).or (tag.namedChildren.find? isName)

def attributes (tag : SyntaxNode) : List SyntaxNode := tag.namedChildren.filter isAttribute

def openingTag? (element : SyntaxNode) : Option SyntaxNode :=
  (element.childByField? .openTag).or (element.childOfKind? .jsxOpening)

def closingTag? (element : SyntaxNode) : Option SyntaxNode :=
  (element.childByField? .closeTag).or (element.childOfKind? .jsxClosing)

/-- What stands in front of the last dot of a dotted name. -/
def object? (name : SyntaxNode) : Option SyntaxNode :=
  (name.childByField? .object).or name.namedChildren[0]?

def property? (name : SyntaxNode) : Option SyntaxNode :=
  (name.childByField? .property).or name.namedChildren[name.namedChildren.length - 1]?

/-- The children of an element that stand within a span and are children of its own. -/
def structuralIn (element : SyntaxNode) (inner : Span) : List SyntaxNode :=
  element.namedChildren.filter fun child =>
    inner.start ≤ child.span.start && child.span.stop ≤ inner.stop && child.isStructural

theorem mem_of_openingTag? {element tag : SyntaxNode} (found : element.openingTag? = some tag) :
    tag ∈ element.children := by
  rcases Option.or_eq_some_iff.1 found with byField | ⟨-, byKind⟩
  · exact mem_of_childByField? byField
  · exact mem_of_childOfKind? byKind

theorem mem_of_object? {name object : SyntaxNode} (found : name.object? = some object) :
    object ∈ name.children := by
  rcases Option.or_eq_some_iff.1 found with byField | ⟨-, byPlace⟩
  · exact mem_of_childByField? byField
  · exact mem_children_of_mem_namedChildren (List.mem_of_getElem? byPlace)

theorem countAll_attributes_lt (tag : SyntaxNode) : countAll tag.attributes < tag.count :=
  Nat.lt_of_le_of_lt (countAll_filter_le _ _) tag.countAll_namedChildren_lt

theorem countAll_structuralIn_lt (element : SyntaxNode) (inner : Span) :
    countAll (element.structuralIn inner) < element.count :=
  Nat.lt_of_le_of_lt (countAll_filter_le _ _) element.countAll_namedChildren_lt

/-! ## Expressions in braces -/

/-- The object or callee that a member or a call applies to. -/
def chainHead? (node : SyntaxNode) : Option SyntaxNode :=
  if node.kind == .call then node.childByField? .function
  else if node.kind == .member || node.kind == .subscript then node.childByField? .object
  else none

theorem mem_of_chainHead? {node head : SyntaxNode} (found : node.chainHead? = some head) :
    head ∈ node.children := by
  unfold chainHead? at found
  split at found
  · exact mem_of_childByField? found
  · split at found
    · exact mem_of_childByField? found
    · cases found

/-- Whether a node has an optional-chain mark of its own. -/
def hasChainMark (node : SyntaxNode) : Bool :=
  (node.childByField? .optionalChain).isSome || (node.childOfKind? .optionalChain).isSome

/-- Whether there is an optional-chain mark anywhere along a chain of calls and members. Parentheses
end the chain. -/
def isInOptionalChain (node : SyntaxNode) : Bool :=
  if node.hasChainMark then true
  else
    match _ : node.chainHead? with
    | some head => isInOptionalChain head
    | none => false
termination_by node.count
decreasing_by exact count_lt_of_mem (mem_of_chainHead? ‹_›)

/-- What a call is applied to: its arguments, or a template. -/
def arguments? (call : SyntaxNode) : Option SyntaxNode :=
  (call.childByField? .arguments).or (call.childOfKind? .templateString)

/-- The kind of an expression in braces. Tagged templates, imports and calls in optional chains have
kinds of their own, so that only a plain call is one. -/
def expressionKind (node : SyntaxNode) : Grammar.Construct :=
  if node.kind != .call then node.kind
  else if node.arguments?.any (·.kind == .templateString) then
    .unlisted "tagged_template_expression"
  else if (node.childByField? .function).any (·.kind == .importWord) then
    .unlisted "import_expression"
  else if node.isInOptionalChain then .unlisted "chain_expression"
  else .call

/-- An expression without the parentheses around it, and the nodes above it, the nearest first. -/
def unparenthesize (ancestors : List SyntaxNode) (node : SyntaxNode) :
    List SyntaxNode × SyntaxNode :=
  if node.kind == .parenthesized then
    match _ : node.expression? with
    | some inner => unparenthesize (node :: ancestors) inner
    | none => (ancestors, node)
  else (ancestors, node)
termination_by node.count
decreasing_by exact count_lt_of_mem (mem_of_expression? ‹_›)

theorem count_unparenthesize_le (ancestors : List SyntaxNode) (node : SyntaxNode) :
    (unparenthesize ancestors node).2.count ≤ node.count := by
  fun_induction unparenthesize ancestors node with
  | case1 ancestors node _ inner found inductionHypothesis =>
    have smaller := count_lt_of_mem (mem_of_expression? found)
    omega
  | case2 => exact Nat.le_refl _
  | case3 => exact Nat.le_refl _

end SyntaxNode

namespace Lowering

open SyntaxNode

variable (source : Text)

def slice (span : Span) : Except BadSlice Text :=
  match Text.slice? source span.start span.stop with
  | some text => .ok text
  | none => .error ⟨span⟩

/-- The text of a node, and no text if there is no node. -/
def textOf : Option SyntaxNode → Except BadSlice Text
  | some node => slice source node.span
  | none => .ok []

/-! ## Comments -/

/-- A comment without its delimiters. -/
def commentBody (text : Text) : Text :=
  match text with
  | '/' :: '/' :: line => line
  | '/' :: '*' :: block =>
    if ['*', '/'].isSuffixOf block then block.take (block.length - 2) else block
  | other => other

/-- A stack with further nodes on it, the last of which was put there first. -/
def pushReversed (stack nodes : List SyntaxNode) : List SyntaxNode :=
  nodes.reverse.foldl (fun stack node => node :: stack) stack

theorem pushReversed_eq (stack nodes : List SyntaxNode) :
    pushReversed stack nodes = nodes ++ stack := by
  simp [pushReversed, List.foldl_reverse]

/-- Collects the comments in the nodes on a stack; the first one is its top. -/
def collectComments (stack : List SyntaxNode) (tree : Tree) : Except BadSlice Tree :=
  match stack with
  | [] => .ok tree
  | node :: rest =>
    if node.kind == .comment then do
      let text ← slice source node.span
      collectComments rest (tree.pushComment ⟨node.span, commentBody text⟩)
    else collectComments (pushReversed rest node.children) tree
termination_by countAll stack
decreasing_by
  · have positive := node.count_pos
    rw [countAll_cons]
    omega
  · have total := node.count_eq
    rw [pushReversed_eq, countAll_append, countAll_cons]
    omega

/-! ## Tags -/

def lowerName (node : SyntaxNode) : Except BadSlice ElementName :=
  if node.kind == .member || node.kind == .nestedIdentifier then do
    let object ← match _ : node.object? with
      | some object => lowerName object
      | none => .ok (.identifier [])
    let property ← textOf source node.property?
    return .member object property
  else if node.kind == .jsxNamespaceName then do
    let space ← textOf source node.namedChildren[0]?
    let suffix ← textOf source node.namedChildren[1]?
    return .namespaced space suffix
  else do
    let word ← slice source node.span
    return .identifier word
termination_by node.count
decreasing_by exact count_lt_of_mem (mem_of_object? ‹_›)

/-- The name of an element; without a name in its tag it is empty. -/
def lowerTagName (tag : SyntaxNode) : Except BadSlice ElementName :=
  match tag.tagName? with
  | some name => lowerName source name
  | none => .ok (.identifier [])

def lowerValue (node : SyntaxNode) : Except BadSlice AttributeValue :=
  if node.kind == .jsxExpression then .ok .expression
  else if node.isMarkup then .ok .element
  else do
    let text ← slice source node.span
    return .literal text

def lowerAttribute (node : SyntaxNode) : Except BadSlice Attribute :=
  if node.kind != .jsxAttribute then .ok ⟨none, some .expression, node.span⟩
  else do
    let parts := node.namedChildren.filter (·.kind != .comment)
    let key ← parts[0]?.mapM fun part => slice source part.span
    let value ← parts[1]?.mapM (lowerValue source)
    return ⟨key, value, node.span⟩

def lowerElement (tag : SyntaxNode) (tags : Tags) : Except BadSlice NodeKind := do
  let name ← lowerTagName source tag
  let attributes ← tag.attributes.mapM (lowerAttribute source)
  return .element ⟨name, attributes, tags⟩

/-! ## Markup -/

/-- The root for markup that is found below some nodes, the nearest of which comes first. -/
def contextOf : List SyntaxNode → NodeKind × Span
  | [] => (.other .program, ⟨0, Text.bytes source⟩)
  | parent :: above =>
    if parent.kind == .parenthesized then contextOf above
    else if parent.kind == .jsxExpression then (.container, parent.span)
    else (.other parent.kind, parent.span)

def pushText (span : Span) (parent : Nat) (tree : Tree) : Except BadSlice Tree := do
  let raw ← slice source span
  return (tree.push (.text raw) span (some parent)).1

/-- The text between two offsets is a child, if there is any. -/
def pushGap (start stop parent : Nat) (tree : Tree) : Except BadSlice Tree :=
  if start < stop then pushText source ⟨start, stop⟩ parent tree else .ok tree

mutual
/-- Lowers the markup in a node that is no child of other markup. -/
def walk (ancestors : List SyntaxNode) (node : SyntaxNode) (tree : Tree) : Except BadSlice Tree :=
  if node.isMarkup then
    let context := contextOf source ancestors
    let pushed := tree.push context.1 context.2 none
    lowerMarkup ancestors node (some pushed.2) pushed.1
  else walkAll (node :: ancestors) node.namedChildren tree
termination_by 4 * node.count + 2
decreasing_by
  · omega
  · have smaller := node.countAll_namedChildren_lt
    omega

def walkAll (ancestors nodes : List SyntaxNode) (tree : Tree) : Except BadSlice Tree :=
  match nodes with
  | [] => .ok tree
  | node :: rest => do
    let grown ← walk ancestors node tree
    walkAll ancestors rest grown
termination_by 4 * countAll nodes + 3
decreasing_by
  · simp only [countAll_cons]
    omega
  · have positive := node.count_pos
    simp only [countAll_cons]
    omega

/-- Lowers an element or a fragment. -/
def lowerMarkup (ancestors : List SyntaxNode) (node : SyntaxNode) (parent : Option Nat)
    (tree : Tree) : Except BadSlice Tree :=
  if node.kind == .jsxSelfClosing then do
    let kind ← lowerElement source node ⟨node.span, none⟩
    walkAll (node :: ancestors) node.attributes (tree.push kind node.span parent).1
  else
    match _ : node.openingTag?, node.closingTag? with
    | some opening, some closing => do
      let tags : Tags := ⟨opening.span, some closing.span⟩
      let structural := node.structuralIn tags.inner
      if opening.tagName?.isSome then do
        let kind ← lowerElement source opening tags
        let pushed := tree.push kind node.span parent
        let grown ← walkAll (opening :: node :: ancestors) opening.attributes pushed.1
        lowerChildren (node :: ancestors) pushed.2 tags.inner.start tags.inner.stop structural grown
      else
        let pushed := tree.push (.fragment tags) node.span parent
        lowerChildren (node :: ancestors) pushed.2 tags.inner.start tags.inner.stop structural
          pushed.1
    -- An element that lacks a tag is kept as it is.
    | _, _ => .ok (tree.push (.other node.kind) node.span parent).1
termination_by 4 * node.count + 1
decreasing_by
  · have smaller := node.countAll_attributes_lt
    omega
  · have inTag := opening.countAll_attributes_lt
    have smaller := count_lt_of_mem (mem_of_openingTag? ‹_›)
    omega
  · have smaller := node.countAll_structuralIn_lt (Tags.inner ⟨opening.span, some closing.span⟩)
    omega
  · have smaller := node.countAll_structuralIn_lt (Tags.inner ⟨opening.span, some closing.span⟩)
    omega

/-- Lowers the children of an element or a fragment. What stands in front of `start` is lowered
already. -/
def lowerChildren (ancestors : List SyntaxNode) (parent start stop : Nat)
    (structural : List SyntaxNode) (tree : Tree) : Except BadSlice Tree :=
  match structural with
  | [] => pushGap source start stop parent tree
  | child :: rest => do
    let withGap ← pushGap source start child.span.start parent tree
    let grown ←
      if child.kind == .jsxExpression then lowerContainer ancestors child parent withGap
      else lowerMarkup ancestors child (some parent) withGap
    lowerChildren ancestors parent child.span.stop stop rest grown
termination_by 4 * countAll structural + 3
decreasing_by
  all_goals
    have positive := child.count_pos
    simp only [countAll_cons]
    omega

/-- Lowers a pair of braces between tags. -/
def lowerContainer (ancestors : List SyntaxNode) (node : SyntaxNode) (parent : Nat) (tree : Tree) :
    Except BadSlice Tree :=
  let pushed := tree.push .container node.span (some parent)
  match _ : node.expression? with
  | none =>
    .ok (pushed.1.push .empty ⟨node.span.start + 1, node.span.stop - 1⟩ (some pushed.2)).1
  | some expression =>
    let inner := unparenthesize (node :: ancestors) expression
    if inner.2.isMarkup then lowerMarkup inner.1 inner.2 (some pushed.2) pushed.1
    else
      let kind := NodeKind.other inner.2.expressionKind
      walk inner.1 inner.2 (pushed.1.push kind inner.2.span (some pushed.2)).1
termination_by 4 * node.count + 1
decreasing_by
  · have smaller := count_lt_of_mem (mem_of_expression? ‹_›)
    have fewer := count_unparenthesize_le (node :: ancestors) expression
    omega
  · have smaller := count_lt_of_mem (mem_of_expression? ‹_›)
    have fewer := count_unparenthesize_le (node :: ancestors) expression
    omega
end

/-- The tree of the markup and the comments in a concrete tree. -/
def lower (root : SyntaxNode) : Except BadSlice Tree := do
  let tree ← collectComments source [root] (Tree.empty source)
  walk source [] root tree

end Lowering

end FragmentLint
