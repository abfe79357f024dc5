import FragmentLint.Proofs.Grammar.Names
import FragmentLint.Proofs.Markup.Written

/-!
Contract: the names of the elements in an accepted source.

The name of an element is what is written in its opening tag, without white space and comments, and
is printed like that, unless a comment or a hidden line stands beside its colon. Main statement:
`Tree.name_of_element`.

Does not own: names in concrete trees.
-/

namespace FragmentLint

namespace Tree

open Grammar

section Parser

variable [SyntaxParser] [LawfulSyntaxParser] [LawfulNames] {dialect : Dialect} {source : Text}
  {tree : Tree}

open SyntaxNode (NameAt)

/-- The name of an element in an accepted source and the name that is written in its opening tag.
Without its white space and comments the written name is that of the element, and what the element
prints as its name, if and only if no comment or hidden line stands beside the colon of it.
Otherwise the first such piece is taken for the second half of the name. Where no name is written,
the name of the element is empty. -/
theorem name_of_element (accepted : ofSource dialect source = .ok tree) {id : Nat} {node : Node}
    {element : Element} (found : tree.node? id = some node)
    (isElement : node.kind = .element element) :
    ∃ root, SyntaxParser.parse? dialect source = some root
      ∧ ∃ tag ∈ root.parts, (tag.kind = .jsxOpening ∨ tag.kind = .jsxSelfClosing)
      ∧ tag.span = element.tags.opening
      ∧ ((∀ child ∈ tag.namedChildren, ¬ child.isName = true) ∧ element.name = .identifier []
        ∨ ∃ name written, tag.childByField? .name = some name ∧ NameAt source name written
          ∧ name.span.Delimits source written.spell
          ∧ (element.name = .ofBare (Text.withoutTrivia written.spell)
            ↔ written.besideColon? = none)
          ∧ (element.name.display = Text.withoutTrivia written.spell ↔ written.besideColon? = none)
          ∧ ∀ piece ∈ written.besideColon?,
            ∃ space, element.name = .namespaced space piece.spell) := by
  obtain ⟨root, parsed, sound, rfl⟩ := ofSource_eq_ok_iff.1 accepted
  have lawful := LawfulSyntaxParser.lawful parsed sound
  have records := records_ofSyntax lawful
  obtain ⟨entry, listed, describes⟩ := records.lists.exists_entry found
  have own := Outline.written_roots lawful entry (List.mem_of_getElem? listed)
  obtain ⟨tag, inRoot, isTag, span, lowered⟩ :=
    own.exists_tag lawful (describes.kind.symm.trans isElement)
  obtain ⟨name, attributes, kindEq, isName, -⟩ := Lowering.lowerElement_eq_ok_iff.1 lowered
  obtain rfl : element.name = name := congrArg Element.name (NodeKind.element.inj kindEq)
  have named := LawfulNames.isNamed parsed sound tag inRoot isTag
  refine ⟨root, parsed, tag, inRoot, isTag, span, ?_⟩
  unfold Lowering.lowerTagName SyntaxNode.tagName? at isName
  cases byRole : tag.childByField? .name with
  | none =>
    have nameless := named.nameless byRole
    rw [byRole, Option.none_or, List.find?_eq_none.2 nameless] at isName
    exact .inl ⟨nameless, (Except.ok.inj isName).symm⟩
  | some found =>
    obtain ⟨written, nameAt, isRead⟩ := named.named found byRole
    rw [byRole, Option.some_or] at isName
    have nameEq : ElementName.ofTagName written = element.name :=
      Except.ok.inj (nameAt.lowerName_eq.symm.trans isName)
    have names := TagName.ofTagName_of_isRead isRead
    rw [← TagName.withoutTrivia_spell isRead, nameEq] at names
    exact .inr ⟨found, written, rfl, nameAt, nameAt.delimits, names⟩

end Parser

open Scripts

theorem name_of_element_with_comment :
    ∃ tree node element root tag name written,
      ofSource .javascript "<a /*x*/ . b/>".toList = .ok tree
      ∧ tree.node? 1 = some node ∧ node.kind = .element element
      ∧ SyntaxParser.parse? .javascript "<a /*x*/ . b/>".toList = some root
      ∧ tag ∈ root.parts ∧ tag.span = element.tags.opening
      ∧ tag.childByField? .name = some name
      ∧ SyntaxNode.NameAt "<a /*x*/ . b/>".toList name written
      ∧ name.span.Delimits "<a /*x*/ . b/>".toList written.spell
      ∧ (element.name = .ofBare (Text.withoutTrivia written.spell) ↔ written.besideColon? = none)
      ∧ element.name = .member (.identifier ['a']) ['b'] := by
  have nodes : (ofSource .javascript "<a /*x*/ . b/>".toList).toOption.map (·.node? 1)
      = some (some ⟨.element ⟨.member (.identifier ['a']) ['b'], [], ⟨⟨0, 14⟩, none⟩⟩, ⟨0, 14⟩,
        some 0, []⟩) := by
    decide +kernel
  obtain ⟨tree, isTree, isNode⟩ := Option.map_eq_some_iff.1 nodes
  obtain ⟨root, parsed, tag, inRoot, -, span, name⟩ :=
    name_of_element (ok_of_toOption isTree) isNode rfl
  rcases name with ⟨-, nameless⟩ | ⟨name, written, byRole, nameAt, delimits, same, -⟩
  · cases nameless
  · exact ⟨tree, _, _, root, tag, name, written, ok_of_toOption isTree, isNode, rfl, parsed, inRoot,
      span, byRole, nameAt, delimits, same, rfl⟩

/-- A comment beside the colon of a name is taken for the second half of the name. -/
theorem comment_beside_colon_is_suffix :
    ∃ tree node element root tag name,
      ofSource .javascript "<svg/*c*/:rect/>".toList = .ok tree
      ∧ tree.node? 1 = some node ∧ node.kind = .element element
      ∧ SyntaxParser.parse? .javascript "<svg/*c*/:rect/>".toList = some root
      ∧ tag ∈ root.parts ∧ tag.span = element.tags.opening
      ∧ tag.childByField? .name = some name
      ∧ name.span.Delimits "<svg/*c*/:rect/>".toList "svg/*c*/:rect".toList
      ∧ Text.withoutTrivia "svg/*c*/:rect".toList = "svg:rect".toList
      ∧ element.name = .namespaced "svg".toList "/*c*/".toList
      ∧ element.name ≠ .ofBare "svg:rect".toList
      ∧ element.name.display ≠ "svg:rect".toList := by
  have nodes : (ofSource .javascript "<svg/*c*/:rect/>".toList).toOption.map (·.node? 1)
      = some (some ⟨.element ⟨.namespaced "svg".toList "/*c*/".toList, [], ⟨⟨0, 16⟩, none⟩⟩,
        ⟨0, 16⟩, some 0, []⟩) := by
    decide +kernel
  have names : ((Grammar.concrete .javascript "<svg/*c*/:rect/>".toList).parts.find?
      (·.kind == .jsxSelfClosing)).bind (fun tag => (tag.childByField? .name).map fun name =>
        (tag.span, name.span))
      = some (⟨0, 16⟩, ⟨1, 14⟩) := by
    decide +kernel
  have delimits : Text.slice? "<svg/*c*/:rect/>".toList 1 14 = some "svg/*c*/:rect".toList := by
    decide +kernel
  have stripped : Text.withoutTrivia "svg/*c*/:rect".toList = "svg:rect".toList := by decide +kernel
  obtain ⟨tree, isTree, isNode⟩ := Option.map_eq_some_iff.1 nodes
  obtain ⟨tag, isTag, inTag⟩ := Option.bind_eq_some_iff.1 names
  obtain ⟨name, isName, spans⟩ := Option.map_eq_some_iff.1 inTag
  obtain ⟨tagSpan, nameSpan⟩ := Prod.mk.inj spans
  refine ⟨tree, _, _, _, tag, name, ok_of_toOption isTree, isNode, rfl, rfl,
    List.mem_of_find?_eq_some isTag, tagSpan, isName, ?_, stripped, rfl, by decide +kernel,
    by decide +kernel⟩
  rw [nameSpan]
  exact delimits

end Tree

end FragmentLint
