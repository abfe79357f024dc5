import FragmentLint.Proofs.Grammar.Nodes
import FragmentLint.Proofs.Markup.Names

/-!
Contract: in the concrete trees of this library's own grammar the names of tags are nodes of their
own.

The node of a name stands behind the trivia at the front of its tag, and is the only child in its
role. Main statement: the instance `Scripts.lawfulNames`.

Does not own: how names are read.
-/

namespace FragmentLint

namespace Grammar

open SyntaxNode

variable {source : Text} {start : Nat}

/-! ## Names -/

/-- Nodes of trivia have names, but neither roles nor the kinds of the names in tags. -/
structure IsAside (node : SyntaxNode) : Prop where
  named : node.isNamed = true
  field : node.field = none
  kind : node.kind = .comment ∨ node.kind = .htmlComment

theorem Trivia.isAside_concrete {piece : Trivia} {node : SyntaxNode}
    (member : node ∈ piece.concrete start) : IsAside node := by
  cases piece <;> simp only [Trivia.concrete, List.mem_singleton, List.not_mem_nil] at member <;>
    subst member
  · exact ⟨rfl, rfl, .inl rfl⟩
  · exact ⟨rfl, rfl, .inl rfl⟩
  · exact ⟨rfl, rfl, .inr rfl⟩

theorem Trivia.isAside_concreteAll {pieces : List Trivia} {node : SyntaxNode}
    (member : node ∈ Trivia.concreteAll start pieces) : IsAside node := by
  induction pieces generalizing start with
  | nil => cases member
  | cons first rest inductionHypothesis =>
    rcases List.mem_append.1 member with isFirst | inRest
    · exact Trivia.isAside_concrete isFirst
    · exact inductionHypothesis inRest

/-- The nodes of trivia in a row are its comments and hidden lines, one by one. -/
theorem Trivia.delimits_concreteAll {pieces : List Trivia}
    (stands : Text.StandsAt source start (Trivia.spellAll pieces)) :
    List.Forall₂ (fun (child : SyntaxNode) piece => child.span.Delimits source (Trivia.spell piece))
      (Trivia.concreteAll start pieces) (pieces.filter Trivia.isNamed) := by
  induction pieces generalizing start with
  | nil => exact .nil
  | cons first rest inductionHypothesis =>
    have spelled : Trivia.spellAll (first :: rest) = first.spell ++ Trivia.spellAll rest :=
      List.flatMap_cons
    rw [spelled] at stands
    have others := inductionHypothesis stands.back
    cases first with
    | space => exact others
    | _ => exact .cons stands.front others

theorem field_concrete {written : TagName} {field : Option Field} :
    (written.concrete start field).field = field := by
  cases written <;> rfl

/-- No child of several is found by a role that none of them has. -/
theorem find?_field_of_none {nodes : List SyntaxNode} {field : Field}
    (none : ∀ node ∈ nodes, node.field ≠ some field) :
    nodes.find? (·.field == some field) = Option.none :=
  List.find?_eq_none.2 fun node member => by simpa using none node member

/-- A name becomes a node for it. -/
theorem TagName.nameAt_concrete {written : TagName} {field : Option Field}
    (stands : Text.StandsAt source start written.spell) :
    NameAt source (written.concrete start field) written := by
  have delimits : (written.concrete start field).span.Delimits source written.spell := by
    rw [(@TagName.lawful_concrete source start written field stands).2]
    exact stands
  induction written generalizing start field with
  | simple word => exact .simple (by show Construct.identifier ∉ _; decide) delimits
  | member object before after property inductionHypothesis =>
    obtain ⟨inObject, -, -, -, inProperty⟩ := Trivia.stands_around rfl stands
    have objectSpan := (@TagName.lawful_concrete source start object (some .object) inObject).2
    have named := @inductionHypothesis start (some .object) inObject
      (by rw [objectSpan]; exact inObject)
    have isObject : ((member object before after property).concrete start field).childByField?
        .object = some (object.concrete start (some .object)) := by
      rw [childByField?, TagName.concrete, SyntaxNode.children_mk]
      exact List.find?_cons_of_pos (by rw [field_concrete]; rfl)
    obtain ⟨last, isProperty, inLast⟩ : ∃ last : SyntaxNode,
        ((member object before after property).concrete start field).childByField? .property
          = some last ∧ last.span.Delimits source property := by
      refine ⟨mk ⟨.propertyIdentifier, true, false, some .property, ⟨_, _⟩⟩ [], ?_, inProperty⟩
      rw [childByField?, TagName.concrete, SyntaxNode.children_mk, List.find?_append,
        find?_field_of_none, Option.none_or]
      · exact List.find?_cons_of_pos rfl
      · intro node member
        rcases List.mem_append.1 member with inFront | inBack
        · rcases List.mem_cons.1 inFront with rfl | inBefore
          · rw [field_concrete]
            decide
          · rw [(Trivia.isAside_concreteAll inBefore).field]
            decide
        · rcases List.mem_cons.1 inBack with rfl | inAfter
          · exact fun role => by cases role
          · rw [(Trivia.isAside_concreteAll inAfter).field]
            decide
    exact .member (.inl rfl) isObject named isProperty inLast delimits
  | qualified space before after suffix =>
    obtain ⟨inSpace, inFront, -, behind, inSuffix⟩ := Trivia.stands_around rfl stands
    have named {place : Nat} {pieces : List Trivia} :
        (Trivia.concreteAll place pieces).filter (·.isNamed) = Trivia.concreteAll place pieces :=
      List.filter_eq_self.2 fun node member => (Trivia.isAside_concreteAll member).named
    have beside := List.rel_append (Trivia.delimits_concreteAll inFront)
      (Trivia.delimits_concreteAll behind)
    simp only [← List.filter_append] at beside
    refine @NameAt.qualified source _ (leaf .identifier true _ space)
      (leaf .identifier true _ suffix) _ _ _ _ _ rfl ?_ inSpace inSuffix beside delimits
    rw [SyntaxNode.namedChildren, TagName.concrete, SyntaxNode.children_mk, List.filter_append,
      List.filter_append, List.filter_cons_of_pos rfl, List.filter_cons_of_neg Bool.false_ne_true,
      List.filter_cons_of_pos rfl, named, named]
    simp

/-! ## Tags -/

theorem isAside_of_gaps {gaps : List Phrase} (all : ∀ phrase ∈ gaps, phrase.IsGap)
    {node : SyntaxNode} (member : node ∈ Phrase.concreteAll start gaps) : IsAside node := by
  induction gaps generalizing start with
  | nil => simp only [Phrase.concreteAll, List.not_mem_nil] at member
  | cons first rest inductionHypothesis =>
    obtain ⟨⟨trivia, rfl⟩, others⟩ := List.forall_mem_cons.1 all
    simp only [Phrase.concreteAll, Phrase.concrete] at member
    rcases List.mem_append.1 member with isFirst | inRest
    · exact Trivia.isAside_concrete isFirst
    · exact inductionHypothesis others inRest

/-- A node for a name in a role is one in any role. -/
theorem give_concrete {written : TagName} {field : Option Field} (parent : Construct)
    (isFirst : Bool) :
    ∃ given, give parent isFirst (written.concrete start field) = written.concrete start given := by
  cases written <;> exact ⟨_, rfl⟩

/-- Whether a child of a tag is not its name. -/
structure NoName (child : SyntaxNode) : Prop where
  field : child.field ≠ some .name
  kind : child.isNamed = true → ¬ child.isName = true

section Tags

variable {tag : Construct} (isTag : tag = .jsxOpening ∨ tag = .jsxSelfClosing)

include isTag

theorem noName_sign {text : Text} (isFirst : Bool) :
    NoName (give tag isFirst (sign start text)) := by
  rcases isTag with rfl | rfl <;>
    exact ⟨(fun role => by cases role), fun named => by cases named⟩

theorem IsAside.noName {node : SyntaxNode} (aside : IsAside node) (isFirst : Bool) :
    NoName (give tag isFirst node) := by
  cases node with
  | mk info below =>
    have noField : info.field = none := aside.field
    have kinds : info.kind = .comment ∨ info.kind = .htmlComment := aside.kind
    have given :
        (give tag isFirst (SyntaxNode.mk info below)).field = role tag info.kind isFirst := by
      show info.field.or _ = _
      rw [noField, Option.none_or]
    refine ⟨?_, fun _ => ?_⟩
    · rw [given]
      rcases isTag with rfl | rfl <;> rcases kinds with kind | kind <;> rw [kind] <;>
        exact fun role => by cases role
    · rw [SyntaxNode.isName, kind_give]
      show ¬ (info.kind == _ || info.kind == _ || info.kind == _ || info.kind == _) = true
      rcases kinds with kind | kind <;> rw [kind] <;> decide

theorem field_give_concrete {written : TagName} (isFirst : Bool) :
    (give tag isFirst (written.concrete start none)).field = some .name := by
  rcases isTag with rfl | rfl <;> cases written <;> rfl

/-- The name in a tag is found by its role, behind the trivia at the front of the tag. -/
theorem isNamed_enclosed {closing : Text} {inside : List Phrase} {field : Option Field}
    (opens : Phrase.OpensTag inside)
    (stands : Text.StandsAt source (start + 1) (Phrase.spellAll inside)) :
    (enclosed tag field start ['<'] closing (Phrase.sizeAll inside)
      (Phrase.concreteAll (start + 1) inside)).IsNamed source := by
  obtain ⟨gaps, behind, rfl, all, isName⟩ := opens
  have inFront : ∀ child ∈ give tag true (sign start ['<'])
      :: (Phrase.concreteAll (start + 1) gaps).map (give tag false), NoName child := by
    intro child member
    rcases List.mem_cons.1 member with rfl | isGap
    · exact noName_sign isTag true
    · obtain ⟨own, isOwn, rfl⟩ := List.mem_map.1 isGap
      exact (isAside_of_gaps all isOwn).noName isTag false
  rcases isName with rfl | ⟨written, others, rfl, text, rest, read⟩
  · have children : ∀ child ∈ (enclosed tag field start ['<'] closing (Phrase.sizeAll (gaps ++ []))
        (Phrase.concreteAll (start + 1) (gaps ++ []))).children, NoName child := by
      intro child member
      change child ∈ give tag true (sign start ['<'])
        :: (Phrase.concreteAll (start + 1) (gaps ++ []) ++ [sign _ closing]).map (give tag false)
        at member
      rw [List.append_nil, List.map_append, ← List.cons_append] at member
      rcases List.mem_append.1 member with isFront | isLast
      · exact inFront child isFront
      · rw [List.mem_singleton.1 isLast]
        exact noName_sign isTag false
    have missing := find?_field_of_none fun child member => (children child member).field
    refine ⟨fun name found => ?_, fun _ child member => ?_⟩
    · rw [childByField?, missing] at found
      cases found
    · obtain ⟨isChild, named⟩ := List.mem_filter.1 member
      exact (children child isChild).kind named
  · rw [Phrase.spellAll_append, Phrase.spellAll_cons] at stands
    have standsName := stands.back.front
    rw [← Phrase.sizeAll_eq] at standsName
    have found : (enclosed tag field start ['<'] closing
        (Phrase.sizeAll (gaps ++ .name written :: others))
        (Phrase.concreteAll (start + 1) (gaps ++ .name written :: others))).childByField? .name
        = some (give tag false (written.concrete (start + 1 + Phrase.sizeAll gaps) none)) := by
      change List.find? _ (give tag true (sign start ['<'])
        :: (Phrase.concreteAll (start + 1) (gaps ++ .name written :: others)
          ++ [sign _ closing]).map (give tag false)) = _
      rw [Phrase.concreteAll_append, List.append_assoc, List.map_append, ← List.cons_append,
        List.find?_append, find?_field_of_none fun child member => (inFront child member).field,
        Option.none_or]
      simp only [Phrase.concreteAll, Phrase.concrete, List.cons_append, List.nil_append,
        List.map_cons]
      exact List.find?_cons_of_pos (by rw [field_give_concrete isTag]; rfl)
    refine ⟨fun name isName => ?_, fun none => ?_⟩
    · obtain rfl := Option.some.inj (found.symm.trans isName)
      refine ⟨written, ?_, TagName.isRead_of_readTag? read⟩
      obtain ⟨given, givenEq⟩ := give_concrete tag false
      rw [givenEq]
      exact TagName.nameAt_concrete standsName
    · rw [found] at none
      cases none

end Tags

/-- The names of all tags are nodes of their own. -/
theorem isNamed_concrete {dialect : Dialect} (sound : (concrete dialect source).hasError = false)
    {tag : SyntaxNode} (member : tag ∈ (concrete dialect source).parts)
    (isTag : tag.kind = .jsxOpening ∨ tag.kind = .jsxSelfClosing) : tag.IsNamed source := by
  have isSpecial : tag.kind.isSpecial = true := by
    rcases isTag with kind | kind <;> rw [kind] <;> rfl
  cases (made_of_mem_parts sound member).isSpecial isSpecial with
  | opening isTag opens stands => exact isNamed_enclosed isTag opens stands
  | @comment info _ isComment =>
    rcases isTag with kind | kind <;> cases isComment.symm.trans kind
  | _ => rcases isTag with kind | kind <;> cases kind

end Grammar

open Scripts in
/-- In the concrete trees of this library's own grammar the names of tags are nodes of their own. -/
scoped instance Scripts.lawfulNames : @LawfulNames Scripts.parser :=
  @LawfulNames.mk Scripts.parser fun {dialect source root} parsed sound => by
    obtain rfl : Grammar.concrete dialect source = root := Option.some.inj parsed
    exact fun tag member isTag => Grammar.isNamed_concrete sound member isTag

end FragmentLint
