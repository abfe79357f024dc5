import FragmentLint.Markup.Lowering
import FragmentLint.Proofs.Markup.Spans

/-!
Contract: what is guaranteed of a parser.

The nodes of a concrete tree delimit pieces of the source, and the children of a node stand within
it one behind the other. Where nothing is missing, an element stands between its two tags, and tags
and braces are written with their delimiters around whatever they hold. A parser that keeps to this
is lawful; results on the sources that it accepts rest on nothing else.

Owns: the nodes in a concrete tree, and the guarantees.
Does not own: guarantees that single results ask for, and parsers that keep them.
-/

namespace FragmentLint

namespace SyntaxNode

mutual
/-- The nodes of a tree, each in front of those below it. -/
def parts : SyntaxNode → List SyntaxNode
  | mk info children => mk info children :: partsOfAll children

/-- The nodes of several trees. -/
def partsOfAll : List SyntaxNode → List SyntaxNode
  | [] => []
  | first :: rest => parts first ++ partsOfAll rest
end

theorem parts_eq (node : SyntaxNode) : node.parts = node :: partsOfAll node.children := by
  cases node with
  | mk info children => rw [parts, children_mk]

theorem mem_parts_self (node : SyntaxNode) : node ∈ node.parts := by
  rw [parts_eq]
  exact List.mem_cons_self

theorem mem_partsOfAll_iff {part : SyntaxNode} {nodes : List SyntaxNode} :
    part ∈ partsOfAll nodes ↔ ∃ node ∈ nodes, part ∈ node.parts := by
  induction nodes with
  | nil => simp [partsOfAll]
  | cons first rest inductionHypothesis => simp [partsOfAll, inductionHypothesis]

theorem mem_parts_iff {part node : SyntaxNode} :
    part ∈ node.parts ↔ part = node ∨ ∃ child ∈ node.children, part ∈ child.parts := by
  rw [parts_eq, List.mem_cons, mem_partsOfAll_iff]

theorem mem_parts_of_mem_children {child node : SyntaxNode} (member : child ∈ node.children) :
    child ∈ node.parts :=
  mem_parts_iff.2 (Or.inr ⟨child, member, child.mem_parts_self⟩)

/-- The nodes below a node of a tree are nodes of the tree. -/
theorem mem_parts_trans {part node root : SyntaxNode} (below : part ∈ node.parts)
    (inRoot : node ∈ root.parts) : part ∈ root.parts := by
  rcases mem_parts_iff.1 inRoot with rfl | ⟨child, member, inChild⟩
  · exact below
  · have smaller := count_lt_of_mem member
    exact mem_parts_iff.2 (Or.inr ⟨child, member, mem_parts_trans below inChild⟩)
termination_by root.count

theorem mem_parts_of_child {child node root : SyntaxNode} (member : child ∈ node.children)
    (inRoot : node ∈ root.parts) : child ∈ root.parts :=
  mem_parts_trans (mem_parts_of_mem_children member) inRoot

/-- Whether the nodes of a tree stand in a source where they say. -/
structure StandsIn (source : Text) (root : SyntaxNode) : Prop where
  delimits : ∀ node ∈ root.parts, ∃ piece, node.span.Delimits source piece
  inOrder : ∀ node ∈ root.parts,
    Span.InOrder node.span.start (node.children.map (·.span)) node.span.stop

/-- Whether a node is written with a delimiter at either end, and its named children stand between
the two. -/
structure EnclosedBy (source opening closing : Text) (node : SyntaxNode) : Prop where
  written : ∃ inside, node.span.Delimits source (opening ++ (inside ++ closing))
  within : ∀ child ∈ node.namedChildren,
    node.span.start + Text.bytes opening ≤ child.span.start
      ∧ child.span.stop + Text.bytes closing ≤ node.span.stop

/-- Whether the first child of an element is its opening tag and the last one its closing tag. -/
def HasTags (element : SyntaxNode) : Prop :=
  ∃ opening content closing, element.children = opening :: (content ++ [closing])
    ∧ opening.kind = .jsxOpening ∧ opening.field = some .openTag
    ∧ opening.span.start = element.span.start
    ∧ closing.kind = .jsxClosing ∧ closing.field = some .closeTag
    ∧ closing.span.stop = element.span.stop
    ∧ ∀ child ∈ content, child.field ≠ some .closeTag

/-- Whether a node, if it is an element, a tag or a pair of braces, is complete. -/
structure IsComplete (source : Text) (node : SyntaxNode) : Prop where
  element : node.kind = .jsxElement → node.HasTags
  opening : node.kind = .jsxOpening → node.EnclosedBy source ['<'] ['>']
  closing : node.kind = .jsxClosing → node.EnclosedBy source ['<', '/'] ['>']
  selfClosing : node.kind = .jsxSelfClosing → node.EnclosedBy source ['<'] ['/', '>']
  braces : node.kind = .jsxExpression → node.EnclosedBy source ['\x7b'] ['\x7d']

/-- Whether the elements, tags and braces of a tree are complete. -/
def Complete (source : Text) (root : SyntaxNode) : Prop :=
  ∀ node ∈ root.parts, node.IsComplete source

variable {source : Text} {root node : SyntaxNode}

/-- What stands in a source does so part by part. -/
theorem StandsIn.part (stands : root.StandsIn source) (inRoot : node ∈ root.parts) :
    node.StandsIn source :=
  ⟨fun part below => stands.delimits part (mem_parts_trans below inRoot),
    fun part below => stands.inOrder part (mem_parts_trans below inRoot)⟩

theorem StandsIn.child (stands : node.StandsIn source) {child : SyntaxNode}
    (member : child ∈ node.children) : child.StandsIn source :=
  stands.part (mem_parts_of_mem_children member)

theorem StandsIn.own (stands : node.StandsIn source) :
    ∃ piece, node.span.Delimits source piece :=
  stands.delimits node node.mem_parts_self

theorem StandsIn.sound (stands : node.StandsIn source) : node.span.Sound source := by
  obtain ⟨piece, delimits⟩ := stands.own
  exact delimits.sound

theorem StandsIn.childrenInOrder (stands : node.StandsIn source) :
    Span.InOrder node.span.start (node.children.map (·.span)) node.span.stop :=
  stands.inOrder node node.mem_parts_self

/-- A node stands within any node that it is a part of. -/
theorem StandsIn.within {part whole : SyntaxNode} (stands : whole.StandsIn source)
    (below : part ∈ whole.parts) : part.span.Within whole.span := by
  rcases mem_parts_iff.1 below with rfl | ⟨child, member, inChild⟩
  · exact ⟨Nat.le_refl _, Nat.le_refl _⟩
  · have smaller := count_lt_of_mem member
    obtain ⟨begins, ends⟩ := stands.childrenInOrder.within _ (List.mem_map_of_mem member)
    obtain ⟨first, last⟩ := (stands.child member).within inChild
    exact ⟨Nat.le_trans begins first, Nat.le_trans last ends⟩
termination_by whole.count

mutual
/-- An error that is found in a tree is one of its nodes. -/
theorem firstError?_mem_parts (node : SyntaxNode) {found : SyntaxNode}
    (isFirst : node.firstError? = some found) : found ∈ node.parts := by
  cases node with
  | mk info children =>
    rw [firstError?] at isFirst
    split at isFirst
    · cases isFirst
      exact mem_parts_self _
    · rw [parts]
      exact List.mem_cons_of_mem _ (firstErrorIn?_mem_partsOfAll children isFirst)

theorem firstErrorIn?_mem_partsOfAll (nodes : List SyntaxNode) {found : SyntaxNode}
    (isFirst : firstErrorIn? nodes = some found) : found ∈ partsOfAll nodes := by
  cases nodes with
  | nil => simp [firstErrorIn?] at isFirst
  | cons first rest =>
    rw [partsOfAll, List.mem_append]
    rw [firstErrorIn?] at isFirst
    split at isFirst
    · cases inFirst : first.firstError? with
      | some inside =>
        rw [inFirst] at isFirst
        cases isFirst
        exact Or.inl (firstError?_mem_parts first inFirst)
      | none =>
        rw [inFirst] at isFirst
        exact Or.inr (firstErrorIn?_mem_partsOfAll rest isFirst)
    · exact Or.inr (firstErrorIn?_mem_partsOfAll rest isFirst)
end

/-- The syntax of a source goes wrong in front of a character or at its end. -/
theorem StandsIn.isBoundary_errorOffset (stands : root.StandsIn source) :
    Text.isBoundary source root.errorOffset = true := by
  unfold errorOffset
  cases isFirst : root.firstError? with
  | none => exact stands.sound.first
  | some found => exact (stands.part (root.firstError?_mem_parts isFirst)).sound.first

/-- Whether a tree stands in a source and is complete. -/
structure Lawful (source : Text) (root : SyntaxNode) : Prop where
  stands : root.StandsIn source
  complete : root.Complete source

namespace Lawful

theorem part (lawful : root.Lawful source) (inRoot : node ∈ root.parts) : node.Lawful source :=
  ⟨lawful.stands.part inRoot,
    fun part below => lawful.complete part (mem_parts_trans below inRoot)⟩

theorem child (lawful : node.Lawful source) {child : SyntaxNode}
    (member : child ∈ node.children) : child.Lawful source :=
  lawful.part (mem_parts_of_mem_children member)

theorem sound (lawful : node.Lawful source) : node.span.Sound source := lawful.stands.sound

theorem within (lawful : node.Lawful source) {child : SyntaxNode}
    (member : child ∈ node.children) : child.span.Within node.span :=
  lawful.stands.within (mem_parts_of_mem_children member)

theorem isComplete (lawful : node.Lawful source) : node.IsComplete source :=
  lawful.complete node node.mem_parts_self

end Lawful

end SyntaxNode

/-- A parser whose trees stand in their sources, complete where nothing is missing. -/
class LawfulSyntaxParser [SyntaxParser] : Prop where
  standsIn {dialect : Dialect} {source : Text} {root : SyntaxNode}
    (parsed : SyntaxParser.parse? dialect source = some root) : root.StandsIn source
  complete {dialect : Dialect} {source : Text} {root : SyntaxNode}
    (parsed : SyntaxParser.parse? dialect source = some root) (sound : root.hasError = false) :
    root.Complete source

theorem LawfulSyntaxParser.lawful [SyntaxParser] [LawfulSyntaxParser] {dialect : Dialect}
    {source : Text} {root : SyntaxNode} (parsed : SyntaxParser.parse? dialect source = some root)
    (sound : root.hasError = false) : root.Lawful source :=
  ⟨standsIn parsed, complete parsed sound⟩

end FragmentLint
