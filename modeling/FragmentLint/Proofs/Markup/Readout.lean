import FragmentLint.Markup.Lowering
import FragmentLint.Markup.Outline

/-!
Contract: the markup in a concrete tree as nested outlines.

The functions here follow those of the lowering one by one, but build outlines where the lowering
grows a tree, so they need neither a tree to grow nor a parent's number. What cannot be cut out of
the source is taken to be empty.

Owns: reading off outlines.
Does not own: that the lowering numbers these outlines, and what is true of them.
-/

namespace FragmentLint.Outline

/-- Where markup that is no content of other markup was found: the kind and the span of its root. -/
abbrev Context := NodeKind × Span

def under (context : Context) (found : Outline) : Outline :=
  node context.1 context.2 [] [found]

variable (source : Text)

def textAt (span : Span) : Text := (Text.slice? source span.start span.stop).getD []

/-- The text between two offsets, unless there is none. -/
def ofText (start stop : Nat) : List Outline :=
  if start < stop then [node (.text (textAt source ⟨start, stop⟩)) ⟨start, stop⟩ [] []] else []

/-- The element that a tag opens. -/
def elementOf (tag : SyntaxNode) (tags : Tags) : NodeKind :=
  match Lowering.lowerElement source tag tags with
  | .ok kind => kind
  | .error _ => .fragment tags

/-- What stands between two tags and is read off as an element if the first one has a name, else as
a fragment. -/
def ofTags (opening : SyntaxNode) (tags : Tags) (span : Span) (aside children : List Outline) :
    Outline :=
  if opening.tagName?.isSome then node (elementOf source opening tags) span aside children
  else node (.fragment tags) span [] children

open SyntaxNode in
mutual
/-- The roots for the markup in a node that is no child of other markup. -/
def roots (ancestors : List SyntaxNode) (node : SyntaxNode) : List Outline :=
  if node.isMarkup then [under (Lowering.contextOf source ancestors) (ofMarkup ancestors node)]
  else rootsIn (node :: ancestors) node.namedChildren
termination_by 4 * node.count + 2
decreasing_by
  · omega
  · have smaller := node.countAll_namedChildren_lt
    omega

def rootsIn (ancestors nodes : List SyntaxNode) : List Outline :=
  match nodes with
  | [] => []
  | first :: rest => roots ancestors first ++ rootsIn ancestors rest
termination_by 4 * countAll nodes + 3
decreasing_by
  · simp only [countAll_cons]
    omega
  · have positive := first.count_pos
    simp only [countAll_cons]
    omega

/-- An element or a fragment, with what was found in its attributes and its children. -/
def ofMarkup (ancestors : List SyntaxNode) (node : SyntaxNode) : Outline :=
  if node.kind == .jsxSelfClosing then
    .node (elementOf source node ⟨node.span, none⟩) node.span
      (rootsIn (node :: ancestors) node.attributes) []
  else
    match _ : node.openingTag?, node.closingTag? with
    | some opening, some closing =>
      let tags : Tags := ⟨opening.span, some closing.span⟩
      let aside := rootsIn (opening :: node :: ancestors) opening.attributes
      let children := childrenIn (node :: ancestors) tags.inner.start tags.inner.stop
        (node.structuralIn tags.inner)
      ofTags source opening tags node.span aside children
    | _, _ => .node (.other node.kind) node.span [] []
termination_by 4 * node.count + 1
decreasing_by
  · have smaller := node.countAll_attributes_lt
    omega
  · have inTag := opening.countAll_attributes_lt
    have smaller := count_lt_of_mem (mem_of_openingTag? ‹_›)
    omega
  · have smaller := node.countAll_structuralIn_lt (Tags.inner ⟨opening.span, some closing.span⟩)
    omega

/-- What stands between two tags from the offset `start` on. -/
def childrenIn (ancestors : List SyntaxNode) (start stop : Nat) (structural : List SyntaxNode) :
    List Outline :=
  match structural with
  | [] => ofText source start stop
  | child :: rest =>
    let own :=
      if child.kind == .jsxExpression then ofBraces ancestors child else ofMarkup ancestors child
    ofText source start child.span.start ++ own :: childrenIn ancestors child.span.stop stop rest
termination_by 4 * countAll structural + 3
decreasing_by
  all_goals
    have positive := child.count_pos
    simp only [countAll_cons]
    omega

/-- A pair of braces between tags, with what stands in it. -/
def ofBraces (ancestors : List SyntaxNode) (node : SyntaxNode) : Outline :=
  match _ : node.expression? with
  | none =>
    .node .container node.span []
      [.node .empty ⟨node.span.start + 1, node.span.stop - 1⟩ [] []]
  | some expression =>
    let inner := unparenthesize (node :: ancestors) expression
    .node .container node.span []
      [if inner.2.isMarkup then ofMarkup inner.1 inner.2
      else .node (.other inner.2.expressionKind) inner.2.span (roots inner.1 inner.2) []]
termination_by 4 * node.count + 1
decreasing_by
  all_goals
    have smaller := count_lt_of_mem (mem_of_expression? ‹_›)
    have fewer := count_unparenthesize_le (node :: ancestors) expression
    omega
end

open SyntaxNode

/-- An element, a fragment or a pair of braces between two tags. -/
def ofChild (ancestors : List SyntaxNode) (child : SyntaxNode) : Outline :=
  if child.kind == .jsxExpression then ofBraces source ancestors child
  else ofMarkup source ancestors child

/-- An expression in braces, without the parentheses around it. -/
def ofExpression (ancestors : List SyntaxNode) (expression : SyntaxNode) : Outline :=
  if expression.isMarkup then ofMarkup source ancestors expression
  else .node (.other expression.expressionKind) expression.span
    (roots source ancestors expression) []

/-! ## Equations -/

variable {source : Text} {ancestors : List SyntaxNode} {node : SyntaxNode}

theorem roots_of_isMarkup (isMarkup : node.isMarkup = true) :
    roots source ancestors node
      = [under (Lowering.contextOf source ancestors) (ofMarkup source ancestors node)] := by
  rw [roots, if_pos isMarkup]

theorem roots_of_not_isMarkup (other : ¬ node.isMarkup = true) :
    roots source ancestors node = rootsIn source (node :: ancestors) node.namedChildren := by
  rw [roots, if_neg other]

@[simp] theorem rootsIn_nil : rootsIn source ancestors [] = [] := by rw [rootsIn]

@[simp] theorem rootsIn_cons (first : SyntaxNode) (rest : List SyntaxNode) :
    rootsIn source ancestors (first :: rest)
      = roots source ancestors first ++ rootsIn source ancestors rest := by rw [rootsIn]

theorem ofMarkup_of_selfClosing (single : node.kind == .jsxSelfClosing) :
    ofMarkup source ancestors node
      = .node (elementOf source node ⟨node.span, none⟩) node.span
        (rootsIn source (node :: ancestors) node.attributes) [] := by
  rw [ofMarkup, if_pos single]

theorem ofMarkup_of_tags (paired : ¬ node.kind == .jsxSelfClosing) {opening closing : SyntaxNode}
    (opens : node.openingTag? = some opening) (closes : node.closingTag? = some closing) :
    ofMarkup source ancestors node
      = ofTags source opening ⟨opening.span, some closing.span⟩ node.span
        (rootsIn source (opening :: node :: ancestors) opening.attributes)
        (childrenIn source (node :: ancestors) opening.span.stop closing.span.start
          (node.structuralIn ⟨opening.span.stop, closing.span.start⟩)) := by
  rw [ofMarkup, if_neg paired]
  split
  · rename_i opens' closes'
    rw [opens] at opens'
    rw [closes] at closes'
    cases opens'
    cases closes'
    rfl
  · rename_i missing
    exact absurd closes (missing _ _ opens)

theorem ofMarkup_of_missing (paired : ¬ node.kind == .jsxSelfClosing)
    (missing : ∀ opening closing, node.openingTag? = some opening →
      node.closingTag? = some closing → False) :
    ofMarkup source ancestors node = .node (.other node.kind) node.span [] [] := by
  rw [ofMarkup, if_neg paired]
  split
  · exact absurd ‹_› (missing _ _ ‹_›)
  · rfl

theorem childrenIn_nil (start stop : Nat) :
    childrenIn source ancestors start stop [] = ofText source start stop := by rw [childrenIn]

theorem childrenIn_cons (start stop : Nat) (child : SyntaxNode) (rest : List SyntaxNode) :
    childrenIn source ancestors start stop (child :: rest)
      = ofText source start child.span.start
        ++ ofChild source ancestors child
          :: childrenIn source ancestors child.span.stop stop rest := by
  rw [childrenIn, ofChild]

theorem ofBraces_of_none (empty : node.expression? = none) :
    ofBraces source ancestors node
      = .node .container node.span []
        [.node .empty ⟨node.span.start + 1, node.span.stop - 1⟩ [] []] := by
  rw [ofBraces]
  split
  · rfl
  · rename_i found
    rw [empty] at found
    cases found

theorem ofBraces_of_some {expression : SyntaxNode} (found : node.expression? = some expression) :
    ofBraces source ancestors node
      = .node .container node.span []
        [ofExpression source (unparenthesize (node :: ancestors) expression).1
          (unparenthesize (node :: ancestors) expression).2] := by
  rw [ofBraces]
  split
  · rename_i empty
    rw [found] at empty
    cases empty
  · rename_i found'
    rw [found] at found'
    cases found'
    rfl

end FragmentLint.Outline
