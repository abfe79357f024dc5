import FragmentLint.Proofs.Grammar.Chains
import FragmentLint.Proofs.Markup.Written

/-!
Contract: what a chain of calls and members in braces is taken for.

Where the expression in a pair of braces is a chain that ends in a call, it is taken for an optional
chain if one of its links makes it one, and for a plain call otherwise. Main statement:
`Tree.kind_of_lone_chain`.

Does not own: chains in a concrete tree.
-/

namespace FragmentLint

namespace Outline

open SyntaxNode

/-- What stands for a chain that ends in a call. -/
theorem kind_ofBraces_of_links? {dialect : Dialect} {source : Text} {ancestors : List SyntaxNode}
    {braces expression : SyntaxNode} {links : List Link}
    (marks : ∀ part ∈ expression.parts, part.isChained = true → part.MarksChains dialect source)
    (isExpression : braces.expression? = some expression)
    (found : expression.links? source = some links)
    (ends : links.getLast?.map (·.step) = some .call) :
    ∃ only, (ofBraces source ancestors braces).children = [only]
      ∧ only.kind
        = .other
          (if links.any (·.makesChain dialect) then .unlisted "chain_expression" else .call) := by
  obtain ⟨kind, expressionKind⟩ := expressionKind_of_links? marks found ends
  have noParentheses : unparenthesize (braces :: ancestors) expression
      = (braces :: ancestors, expression) := by
    unfold unparenthesize
    rw [kind]
    rfl
  have noMarkup : ¬ expression.isMarkup = true := by
    rw [SyntaxNode.isMarkup, kind]
    decide
  rw [ofBraces_of_some isExpression, noParentheses]
  refine ⟨_, rfl, ?_⟩
  rw [ofExpression, if_neg noMarkup, ← expressionKind]
  rfl

end Outline

namespace Tree

section Parser

variable [SyntaxParser] [LawfulSyntaxParser] [LawfulChains] {dialect : Dialect} {source : Text}
  {tree : Tree}

/-- What stands in braces that are a child of another node, in an accepted source: where
it is a chain that ends in a call, the only child of the braces is taken for an optional chain if a
link makes one, and for a plain call otherwise. So it is taken for what the links with `?.` ask for
unless the only such links are optional calls in TSX. -/
theorem kind_of_lone_chain (accepted : ofSource dialect source = .ok tree) {id childId : Nat}
    {node child : Node} (found : tree.node? id = some node) (listed : childId ∈ node.children)
    (foundChild : tree.node? childId = some child) (braces : child.kind = .container) :
    ∃ root, SyntaxParser.parse? dialect source = some root
      ∧ ∃ part ∈ root.parts, part.kind = .jsxExpression ∧ part.span = child.span
      ∧ ∀ lone links, part.expression? = some lone → lone.links? source = some links →
        links.getLast?.map (·.step) = some .call →
        ∃ only expression, child.children = [only] ∧ tree.node? only = some expression
          ∧ expression.kind = .other
            (if links.any (·.makesChain dialect) then .unlisted "chain_expression" else .call)
          ∧ (expression.kind = .other
              (if links.any (·.isOptional) then .unlisted "chain_expression" else .call)
            ↔ dialect = .javascript ∨ (∀ link ∈ links, link.isOptional = false)
              ∨ ∃ link ∈ links, link.isOptional = true ∧ link.step ≠ .call) := by
  obtain ⟨root, parsed, sound, rfl⟩ := ofSource_eq_ok_iff.1 accepted
  have lawful := LawfulSyntaxParser.lawful parsed sound
  have records := records_ofSyntax lawful
  obtain ⟨entry, -, describes⟩ := records.lists.exists_entry found
  obtain ⟨outline, -, listedChild⟩ := describes.exists_of_mem_children listed
  obtain ⟨_, known, describesChild⟩ := records.lists.exists_node listedChild
  obtain rfl := Option.some.inj (foundChild.symm.trans known)
  have written := Outline.written_roots lawful _ (List.mem_of_getElem? listedChild)
  obtain ⟨ancestors, part, inRoot, isBraces, rfl⟩ :=
    written.exists_braces lawful (describesChild.kind.symm.trans braces)
  refine ⟨root, parsed, part, inRoot, isBraces, ?_, fun lone links isLone isChain ends => ?_⟩
  · rw [describesChild.span]
    exact (Outline.placed_ofBraces (lawful.part inRoot) isBraces).2.1.symm
  · have marks : ∀ below ∈ lone.parts, below.isChained = true →
        below.MarksChains dialect source := by
      intro below inLone
      have inPart := SyntaxNode.mem_parts_trans inLone
        (SyntaxNode.mem_parts_of_mem_children (SyntaxNode.mem_of_expression? isLone))
      exact LawfulChains.marksChains parsed sound below (SyntaxNode.mem_parts_trans inPart inRoot)
    obtain ⟨below, childrenEq, kindEq⟩ :=
      @Outline.kind_ofBraces_of_links? dialect source ancestors _ _ _ marks isLone isChain ends
    obtain ⟨only, expression, onlyEq, foundOnly, describesOnly⟩ :=
      records.lists.exists_only_child describesChild childrenEq
    have sameKind := describesOnly.kind.trans kindEq
    refine ⟨only, expression, onlyEq, foundOnly, sameKind, ?_⟩
    rw [sameKind, ← Link.any_makesChain_iff]
    cases links.any (·.makesChain dialect) <;> cases links.any (·.isOptional) <;> decide

end Parser

open Scripts

theorem kind_of_lone_chain_of_all_forms :
    ∃ tree root node child part lone only expression,
      ofSource .tsx "<>\x7ba.b?.c[d]?.[e](f)?.(g)\x7d</>".toList = .ok tree
      ∧ tree.node? 1 = some node ∧ 2 ∈ node.children
      ∧ tree.node? 2 = some child ∧ child.kind = .container
      ∧ SyntaxParser.parse? .tsx "<>\x7ba.b?.c[d]?.[e](f)?.(g)\x7d</>".toList = some root
      ∧ part ∈ root.parts ∧ part.kind = .jsxExpression ∧ part.span = child.span
      ∧ part.expression? = some lone
      ∧ lone.links? "<>\x7ba.b?.c[d]?.[e](f)?.(g)\x7d</>".toList = some Link.forms
      ∧ Link.forms.getLast?.map (·.step) = some .call
      ∧ child.children = [only] ∧ tree.node? only = some expression
      ∧ expression.kind = .other (.unlisted "chain_expression") := by
  have nodes : (ofSource .tsx "<>\x7ba.b?.c[d]?.[e](f)?.(g)\x7d</>".toList).toOption.map
      (fun tree => (tree.node? 1, tree.node? 2))
      = some (some ⟨.fragment ⟨⟨0, 2⟩, some ⟨26, 29⟩⟩, ⟨0, 29⟩, some 0, [2]⟩,
        some ⟨.container, ⟨2, 26⟩, some 1, [3]⟩) := by
    decide +kernel
  have chains : ((Grammar.concrete .tsx "<>\x7ba.b?.c[d]?.[e](f)?.(g)\x7d</>".toList).parts.filter
      (·.kind == .jsxExpression)).all (fun part =>
        part.expression?.bind (·.links? "<>\x7ba.b?.c[d]?.[e](f)?.(g)\x7d</>".toList)
          == some Link.forms) = true := by
    decide +kernel
  obtain ⟨tree, isTree, nodesEq⟩ := Option.map_eq_some_iff.1 nodes
  obtain ⟨isNode, isChild⟩ := Prod.mk.inj nodesEq
  obtain ⟨root, parsed, part, inRoot, braces, span, kinds⟩ :=
    kind_of_lone_chain (ok_of_toOption isTree) isNode (List.mem_singleton.2 rfl) isChild rfl
  obtain rfl : Grammar.concrete .tsx _ = root := Option.some.inj parsed
  have isChain := List.all_eq_true.1 chains part (List.mem_filter.2 ⟨inRoot, beq_iff_eq.2 braces⟩)
  obtain ⟨lone, isLone, links⟩ := Option.bind_eq_some_iff.1 (eq_of_beq isChain)
  obtain ⟨only, expression, onlyEq, found, kindEq, -⟩ := kinds lone _ isLone links rfl
  exact ⟨tree, _, _, _, part, lone, only, expression, ok_of_toOption isTree, isNode,
    List.mem_singleton.2 rfl, isChild, rfl, parsed, inRoot, braces, span, isLone, links, rfl,
    onlyEq, found, kindEq⟩

/-- In TSX a lone optional call is taken for a plain call, though its link is written with `?.`. -/
theorem lone_optional_call_is_plain :
    ∃ tree root child part lone expression,
      ofSource .tsx "<p><>\x7bfoo?.()\x7d</></p>".toList = .ok tree
      ∧ tree.node? 3 = some child ∧ child.kind = .container
      ∧ SyntaxParser.parse? .tsx "<p><>\x7bfoo?.()\x7d</></p>".toList = some root
      ∧ part ∈ root.parts ∧ part.kind = .jsxExpression ∧ part.span = child.span
      ∧ part.expression? = some lone
      ∧ lone.span.Delimits "<p><>\x7bfoo?.()\x7d</></p>".toList "foo?.()".toList
      ∧ lone.links? "<p><>\x7bfoo?.()\x7d</></p>".toList = some [⟨.call, true⟩]
      ∧ child.children = [4] ∧ tree.node? 4 = some expression ∧ expression.kind = .other .call := by
  have nodes : (ofSource .tsx "<p><>\x7bfoo?.()\x7d</></p>".toList).toOption.map
      (fun tree => (tree.node? 3, tree.node? 4))
      = some (some ⟨.container, ⟨5, 14⟩, some 2, [4]⟩,
        some ⟨.other .call, ⟨6, 13⟩, some 3, []⟩) := by
    decide +kernel
  have chains : ((Grammar.concrete .tsx "<p><>\x7bfoo?.()\x7d</></p>".toList).parts.find?
      (·.kind == .jsxExpression)).bind (fun part => part.expression?.map fun lone =>
        (part.span, lone.span, lone.links? "<p><>\x7bfoo?.()\x7d</></p>".toList))
      = some (⟨5, 14⟩, ⟨6, 13⟩, some [⟨.call, true⟩]) := by
    decide +kernel
  obtain ⟨tree, isTree, nodesEq⟩ := Option.map_eq_some_iff.1 nodes
  obtain ⟨isChild, isExpression⟩ := Prod.mk.inj nodesEq
  obtain ⟨part, isPart, inPart⟩ := Option.bind_eq_some_iff.1 chains
  obtain ⟨lone, isLone, placeEq⟩ := Option.map_eq_some_iff.1 inPart
  obtain ⟨span, others⟩ := Prod.mk.inj placeEq
  obtain ⟨loneSpan, links⟩ := Prod.mk.inj others
  refine ⟨tree, _, _, part, lone, _, ok_of_toOption isTree, isChild, rfl, rfl,
    List.mem_of_find?_eq_some isPart, by simpa using List.find?_some isPart, span, isLone, ?_,
    links, rfl, isExpression, rfl⟩
  rw [loneSpan]
  show Text.slice? _ _ _ = _
  decide +kernel

end Tree

end FragmentLint
