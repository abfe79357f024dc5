import FragmentLint.Proofs.Grammar.TagName
import FragmentLint.Proofs.Markup.Lowered

/-!
Contract: what the name of a tag is lowered to, next to the name that is written there.

White space and comments may stand around the dots and the colon of a name. Without them the name is
that of the element, and what the element prints as its name, unless a comment or a hidden line
stands beside the colon: the first one is then taken for the second half of the name
(`ofTagName_of_isRead`). What is asked of a parser is that the node of a name is one of its forms
(`SyntaxNode.NameAt`).

Owns: `ElementName.ofBare`, `ElementName.ofTagName` and `LawfulNames`.
Does not own: how names are read.
-/

namespace FragmentLint

open Grammar

/-- Whether a piece of trivia is a node of a concrete tree. -/
def Grammar.Trivia.isNamed : Trivia → Bool
  | space _ => false
  | _ => true

namespace ElementName

/-- Words joined by dots, nested to the left. -/
def ofWords : List Text → ElementName
  | [] => identifier []
  | first :: rest => rest.foldl member (identifier first)

/-- The name that a text without white space and comments is. -/
def ofBare (text : Text) : ElementName :=
  match text.splitOn ':' with
  | [space, suffix] => namespaced space suffix
  | _ => ofWords (text.splitOn '.')

/-- The name that is read off a written one: what stands first beside its colon, if anything does,
is taken for its second half. -/
def ofTagName : TagName → ElementName
  | .simple word => identifier word
  | .member object _ _ property => member (ofTagName object) property
  | .qualified space before after suffix =>
    namespaced space (((before ++ after).find? Trivia.isNamed).elim suffix Trivia.spell)

theorem ofWords_append {words : List Text} (occupied : words ≠ []) (word : Text) :
    ofWords (words ++ [word]) = member (ofWords words) word := by
  cases words with
  | nil => exact absurd rfl occupied
  | cons first rest => simp [ofWords]

end ElementName

namespace Grammar.TagName

/-- The comment or hidden line that stands first beside the colon of a name. -/
def besideColon? : TagName → Option Trivia
  | .qualified _ before after _ => (before ++ after).find? Trivia.isNamed
  | _ => none

theorem not_mem_of_isWord {word : Text} {sign : Char} (isWord : IsWord word)
    (noName : isNameChar sign = false) : sign ∉ word := by
  intro member
  rw [isWord.chars sign member] at noName
  cases noName

/-- A dotted name has no colon, and its words are what stands between its dots. -/
theorem ofWords_of_isDotted {name : TagName} (dotted : IsDotted name) :
    ':' ∉ name.bare ∧ ElementName.ofWords (name.bare.splitOn '.') = ElementName.ofTagName name
      ∧ name.besideColon? = none ∧ (ElementName.ofTagName name).display = name.bare := by
  induction dotted with
  | simple isWord =>
    refine ⟨not_mem_of_isWord isWord rfl, ?_, rfl, rfl⟩
    rw [bare, List.splitOn_eq_singleton (not_mem_of_isWord isWord rfl)]
    rfl
  | @member object before after c rest _ _ _ isWord inductionHypothesis =>
    obtain ⟨noColon, words, -, displayed⟩ := inductionHypothesis
    refine ⟨?_, ?_, rfl, ?_⟩
    · rw [bare, List.mem_append, List.mem_cons]
      rintro (inObject | sign | inWord)
      · exact noColon inObject
      · exact absurd sign (by decide)
      · exact not_mem_of_isWord isWord rfl inWord
    · rw [bare, List.splitOn_append_cons_self,
        List.splitOn_eq_singleton (not_mem_of_isWord isWord rfl),
        ElementName.ofWords_append (List.splitOn_ne_nil _ _), words]
      rfl
    · simp only [ElementName.ofTagName, ElementName.display, displayed, bare]

/-- What stands beside the colon of a name takes the place of its second half, and nothing else in a
name does. -/
theorem ofTagName_of_isRead {name : TagName} (read : IsRead name) :
    (ElementName.ofTagName name = .ofBare name.bare ↔ name.besideColon? = none)
      ∧ ((ElementName.ofTagName name).display = name.bare ↔ name.besideColon? = none)
      ∧ ∀ piece ∈ name.besideColon?, ∃ space,
        ElementName.ofTagName name = .namespaced space piece.spell := by
  cases read with
  | dotted dotted =>
    obtain ⟨noColon, words, noPiece, displayed⟩ := ofWords_of_isDotted dotted
    have bareEq : ElementName.ofBare name.bare = ElementName.ofTagName name := by
      rw [ElementName.ofBare, List.splitOn_eq_singleton noColon]
      exact words
    refine ⟨iff_of_true bareEq.symm noPiece, iff_of_true displayed noPiece, ?_⟩
    rw [noPiece]
    intro piece none
    cases none
  | @qualified space before after c rest isWord toColon toName isSuffix =>
    have bareEq :
        ElementName.ofBare (space ++ ':' :: (c :: rest)) = .namespaced space (c :: rest) := by
      rw [ElementName.ofBare, List.splitOn_append_cons_self,
        List.splitOn_eq_singleton (not_mem_of_isWord isWord rfl),
        List.splitOn_eq_singleton (not_mem_of_isWord isSuffix rfl)]
      rfl
    rw [bare, bareEq]
    cases beside : (before ++ after).find? Trivia.isNamed with
    | none =>
      simp only [besideColon?, ElementName.ofTagName, beside, Option.elim_none, ElementName.display]
      refine ⟨trivial, trivial, fun piece noPiece => ?_⟩
      cases noPiece
    | some piece =>
      have differs : piece.spell ≠ c :: rest := by
        rintro spellEq
        rcases List.mem_append.1 (List.mem_of_find?_eq_some beside) with inBefore | inAfter
        · exact not_isWord_of_readBefore toColon inBefore (spellEq ▸ isSuffix)
        · exact not_isWord_of_readBefore toName inAfter (spellEq ▸ isSuffix)
      simp only [besideColon?, ElementName.ofTagName, beside, Option.elim_some, ElementName.display]
      refine ⟨by simpa using differs, by simpa using differs, fun other isPiece => ?_⟩
      obtain rfl := Option.some.inj isPiece
      exact ⟨space, rfl⟩

end Grammar.TagName

namespace SyntaxNode

variable {source : Text} {node : SyntaxNode}

/-- Whether a node is that of a name that is written in a source: a word; what stands in front of
the last dot, and the word behind it; or two words with a colon between them, and the comments and
hidden lines beside it. -/
inductive NameAt (source : Text) : SyntaxNode → TagName → Prop where
  | simple {node : SyntaxNode} {word : Text}
      (kind : node.kind ∉ ([.member, .nestedIdentifier, .jsxNamespaceName] : List Construct))
      (delimits : node.span.Delimits source word) : NameAt source node (.simple word)
  | member {node object last : SyntaxNode} {written : TagName} {before after : List Trivia}
      {property : Text} (kind : node.kind = .member ∨ node.kind = .nestedIdentifier)
      (isObject : node.childByField? .object = some object)
      (inObject : NameAt source object written)
      (isProperty : node.childByField? .property = some last)
      (inProperty : last.span.Delimits source property)
      (delimits :
        node.span.Delimits source (TagName.spell (.member written before after property))) :
      NameAt source node (.member written before after property)
  | qualified {node first last : SyntaxNode} {between : List SyntaxNode} {space suffix : Text}
      {before after : List Trivia} (kind : node.kind = .jsxNamespaceName)
      (namedChildren : node.namedChildren = first :: (between ++ [last]))
      (inFirst : first.span.Delimits source space) (inLast : last.span.Delimits source suffix)
      (beside : List.Forall₂ (fun (child : SyntaxNode) piece =>
        child.span.Delimits source (Trivia.spell piece)) between
        ((before ++ after).filter Trivia.isNamed))
      (delimits :
        node.span.Delimits source (TagName.spell (.qualified space before after suffix))) :
      NameAt source node (.qualified space before after suffix)

theorem NameAt.delimits {written : TagName} (isName : NameAt source node written) :
    node.span.Delimits source written.spell := by
  cases isName with
  | simple _ delimits => exact delimits
  | member _ _ _ _ _ delimits => exact delimits
  | qualified _ _ _ _ _ delimits => exact delimits

/-- A written name is lowered to the name that is read off it. -/
theorem NameAt.lowerName_eq {written : TagName} (isName : NameAt source node written) :
    Lowering.lowerName source node = .ok (ElementName.ofTagName written) := by
  induction isName with
  | @simple node word kind delimits =>
    simp only [List.mem_cons, List.not_mem_nil, or_false, not_or] at kind
    rw [Lowering.lowerName]
    simp only [kind, Lowering.slice_eq_ok_iff.2 delimits, beq_iff_eq, Bool.or_eq_true, or_self,
      if_false]
    rfl
  | @member node object last written before after property kind isObject _ isProperty inProperty _
      inductionHypothesis =>
    have dotted : (node.kind == .member || node.kind == .nestedIdentifier) = true := by
      simpa using kind
    have objectEq : node.object? = some object := by rw [object?, isObject, Option.some_or]
    have propertyEq : node.property? = some last := by rw [property?, isProperty, Option.some_or]
    have propertyText : Lowering.textOf source node.property? = .ok property := by
      rw [propertyEq]
      exact Lowering.slice_eq_ok_iff.2 inProperty
    rw [Lowering.lowerName, if_pos dotted]
    simp only
    split
    next found isFound =>
      obtain rfl := Option.some.inj (objectEq.symm.trans isFound)
      exact bind_eq_ok_iff.2 ⟨_, inductionHypothesis, bind_eq_ok_iff.2 ⟨_, propertyText, rfl⟩⟩
    next missing =>
      rw [objectEq] at missing
      cases missing
  | @qualified node first last between space suffix before after kind namedChildren inFirst inLast
      beside _ =>
    have firstText : Lowering.textOf source node.namedChildren[0]? = .ok space := by
      rw [namedChildren]
      exact Lowering.slice_eq_ok_iff.2 inFirst
    -- The second named child is what stands first beside the colon, or the second half of the name.
    have secondText : Lowering.textOf source node.namedChildren[1]?
        = .ok (((before ++ after).find? Trivia.isNamed).elim suffix Trivia.spell) := by
      rw [namedChildren, ← List.head?_filter]
      generalize (before ++ after).filter Trivia.isNamed = pieces at beside
      cases beside with
      | nil => exact Lowering.slice_eq_ok_iff.2 inLast
      | cons here => exact Lowering.slice_eq_ok_iff.2 here
    rw [Lowering.lowerName, kind]
    exact bind_eq_ok_iff.2 ⟨_, firstText, bind_eq_ok_iff.2 ⟨_, secondText, rfl⟩⟩

/-- Whether the name of a tag is found by its role, and is one of a tag. -/
structure IsNamed (source : Text) (tag : SyntaxNode) : Prop where
  named : ∀ name, tag.childByField? .name = some name →
    ∃ written, NameAt source name written ∧ TagName.IsRead written
  nameless : tag.childByField? .name = none → ∀ child ∈ tag.namedChildren, ¬ child.isName = true

end SyntaxNode

/-- A parser in whose trees the names of tags are nodes of their own. -/
class LawfulNames [SyntaxParser] : Prop where
  isNamed {dialect : Dialect} {source : Text} {root : SyntaxNode}
    (parsed : SyntaxParser.parse? dialect source = some root) (sound : root.hasError = false) :
    ∀ tag ∈ root.parts, tag.kind = .jsxOpening ∨ tag.kind = .jsxSelfClosing → tag.IsNamed source

end FragmentLint
