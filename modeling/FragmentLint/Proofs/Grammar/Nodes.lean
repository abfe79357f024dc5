import FragmentLint.Proofs.Grammar.Concrete
import FragmentLint.Proofs.Markup.Comments

/-!
Contract: what the nodes of a concrete tree are made of.

A node is a token, a comment, or made of the phrases in a construct, a name, an attribute, a pair of
braces, a tag or an element, which stand where it does. Its role in its parent does not matter for
this. Main statement: `made_of_mem_parts`.

Does not own: what is guaranteed of the nodes.
-/

namespace FragmentLint.Grammar

open SyntaxNode

/-- Whether nodes of a kind hold no others. -/
def Construct.isToken : Construct → Bool
  | .jsxText => true
  | .string => true
  | .htmlComment => true
  | .propertyIdentifier => true
  | .unlisted _ => true
  | _ => false

/-- Whether nodes of a kind are comments, or markup and what it is made of. -/
def Construct.isSpecial : Construct → Bool
  | .comment => true
  | .jsxElement => true
  | .jsxSelfClosing => true
  | .jsxOpening => true
  | .jsxAttribute => true
  | .jsxExpression => true
  | _ => false

theorem Construct.isSpecial_of_isToken {kind : Construct} (isToken : kind.isToken = true) :
    kind.isSpecial = false := by
  cases kind <;> first | rfl | cases isToken

theorem Construct.isSpecial_of_isPlain {kind : Construct} (plain : kind.isPlain = true) :
    kind.isSpecial = false := by
  cases kind <;> first | rfl | cases plain

/-- The forms of the comments in the concrete tree of a source, and of the markup there. -/
inductive Special (dialect : Dialect) (source : Text) : SyntaxNode → Prop where
  | comment {info : NodeInfo} {body : Text} (isComment : info.kind = .comment)
      (written : CommentAt source info.span body) : Special dialect source (mk info [])
  | attr {parts : List Phrase} {start : Nat} {field : Option Field}
      (isAttribute : Phrase.IsAttribute parts)
      (stands : Text.StandsAt source start (Phrase.spellAll parts)) :
      Special dialect source (inner .jsxAttribute field ⟨start, start + Phrase.sizeAll parts⟩
        (Phrase.concreteAll start parts))
  | braces {inside : List Phrase} {start : Nat} {field : Option Field}
      (sound : (Phrase.container inside).WellFormed dialect)
      (stands : Text.StandsAt source (start + 1) (Phrase.spellAll inside)) :
      Special dialect source (enclosed .jsxExpression field start ['\x7b'] ['\x7d']
        (Phrase.sizeAll inside) (Phrase.concreteAll (start + 1) inside))
  /-- An opening tag, or one that closes itself. -/
  | opening {kind : Construct} {closing : Text} {inside : List Phrase} {start : Nat}
      {field : Option Field} (isTag : kind = .jsxOpening ∨ kind = .jsxSelfClosing)
      (opens : Phrase.OpensTag inside)
      (stands : Text.StandsAt source (start + 1) (Phrase.spellAll inside)) :
      Special dialect source (enclosed kind field start ['<'] closing (Phrase.sizeAll inside)
        (Phrase.concreteAll (start + 1) inside))
  | element {opening closing : SyntaxNode} {content : List Phrase} {start : Nat}
      {field : Option Field} {span : Span} (isContent : ∀ part ∈ content, part.IsContent) :
      Special dialect source (inner .jsxElement field span
        (opening :: Phrase.concreteContent start content ++ [closing]))

/-- The forms of the nodes in the concrete tree of a source, in whatever role. -/
inductive Made (dialect : Dialect) (source : Text) : SyntaxNode → Prop where
  | special {node : SyntaxNode} (special : Special dialect source node) : Made dialect source node
  | token {info : NodeInfo} (isToken : info.kind.isToken = true) : Made dialect source (mk info [])
  | name {written : TagName} {start : Nat} {field : Option Field}
      (stands : Text.StandsAt source start written.spell) :
      Made dialect source (written.concrete start field)
  | construct {kind : Construct} {parts : List Phrase} {start : Nat} {field : Option Field}
      (sound : (Phrase.construct kind parts).WellFormed dialect)
      (stands : Text.StandsAt source start (Phrase.spellAll parts)) :
      Made dialect source
        (inner kind field ⟨start, start + Phrase.sizeAll parts⟩ (Phrase.concreteAll start parts))
  | closing {start size : Nat} {field : Option Field} {between : List SyntaxNode} :
      Made dialect source (enclosed .jsxClosing field start ['<', '/'] ['>'] size between)
  | root {field : Option Field} {span : Span} {children : List SyntaxNode} :
      Made dialect source (mk ⟨.program, true, false, field, span⟩ children)

variable {dialect : Dialect} {source : Text} {start : Nat}

/-- Nodes are made alike in all roles. -/
theorem Made.give {node : SyntaxNode} (made : Made dialect source node) (parent : Construct)
    (isFirst : Bool) : Made dialect source (Grammar.give parent isFirst node) := by
  cases made with
  | special special =>
    refine .special ?_
    cases special with
    | comment isComment written => exact .comment isComment written
    | attr isAttribute stands => exact .attr isAttribute stands
    | braces sound stands => exact .braces sound stands
    | opening isTag opens stands => exact .opening isTag opens stands
    | element isContent => exact .element isContent
  | token isToken => exact .token isToken
  | @name written start field stands => cases written <;> exact .name stands
  | construct sound stands => exact .construct sound stands
  | closing => exact .closing
  | root => exact .root

/-- The form of a node of a special kind. -/
theorem Made.isSpecial {node : SyntaxNode} (made : Made dialect source node)
    (isSpecial : node.kind.isSpecial = true) : Special dialect source node := by
  cases made with
  | special special => exact special
  | @token info isToken =>
    rw [show (mk info []).kind = info.kind from rfl, Construct.isSpecial_of_isToken isToken]
      at isSpecial
    cases isSpecial
  | @name written => cases written <;> cases isSpecial
  | @construct kind _ _ _ sound =>
    change kind.isSpecial = true at isSpecial
    cases sound with
    | construct plain =>
      rw [Construct.isSpecial_of_isPlain plain] at isSpecial
      cases isSpecial
  | closing => cases isSpecial
  | root => cases isSpecial

/-- Whether all nodes of a tree are made like that. -/
def AllMade (dialect : Dialect) (source : Text) (node : SyntaxNode) : Prop :=
  ∀ part ∈ node.parts, Made dialect source part

theorem allMade_iff {node : SyntaxNode} :
    AllMade dialect source node ↔
      Made dialect source node ∧ ∀ child ∈ node.children, AllMade dialect source child := by
  constructor
  · exact fun all => ⟨all node node.mem_parts_self, fun child isChild part below =>
      all part (mem_parts_trans below (mem_parts_of_mem_children isChild))⟩
  · rintro ⟨own, below⟩ part member
    rcases mem_parts_iff.1 member with rfl | ⟨child, isChild, inChild⟩
    · exact own
    · exact below child isChild part inChild

theorem allMade_leaf {info : NodeInfo} (made : Made dialect source (mk info [])) :
    AllMade dialect source (mk info []) :=
  allMade_iff.2 ⟨made, fun _ none => nomatch none⟩

theorem AllMade.give {node : SyntaxNode} (all : AllMade dialect source node) (parent : Construct)
    (isFirst : Bool) : AllMade dialect source (Grammar.give parent isFirst node) := by
  cases node with
  | mk info children =>
    obtain ⟨own, below⟩ := allMade_iff.1 all
    exact allMade_iff.2 ⟨own.give parent isFirst, below⟩

theorem allMade_inner {kind : Construct} {field : Option Field} {span : Span}
    {children : List SyntaxNode} (made : Made dialect source (inner kind field span children))
    (below : ∀ child ∈ children, AllMade dialect source child) :
    AllMade dialect source (inner kind field span children) := by
  refine allMade_iff.2 ⟨made, fun child member => ?_⟩
  obtain ⟨own, isOwn, isFirst, rfl⟩ := exists_of_mem_giveAll member
  exact (below own isOwn).give kind isFirst

theorem allMade_sign {text : Text} : AllMade dialect source (sign start text) :=
  allMade_leaf (.token rfl)

theorem allMade_enclosed {kind : Construct} {field : Option Field} {opening closing : Text}
    {size : Nat} {between : List SyntaxNode}
    (made : Made dialect source (enclosed kind field start opening closing size between))
    (below : ∀ child ∈ between, AllMade dialect source child) :
    AllMade dialect source (enclosed kind field start opening closing size between) := by
  refine allMade_inner made fun child member => ?_
  rcases List.mem_append.1 member with inFront | isLast
  · rcases List.mem_cons.1 inFront with rfl | inBetween
    · exact allMade_sign
    · exact below child inBetween
  · rw [List.mem_singleton.1 isLast]
    exact allMade_sign

theorem Trivia.allMade_concrete {trivia : Trivia} {node : SyntaxNode}
    (stands : Text.StandsAt source start trivia.spell) (member : node ∈ trivia.concrete start) :
    AllMade dialect source node := by
  cases trivia with
  | space => cases member
  | line body =>
    rw [List.mem_singleton.1 member]
    exact allMade_leaf (.special (.comment rfl (.line stands)))
  | block body =>
    rw [List.mem_singleton.1 member]
    exact allMade_leaf (.special (.comment rfl (.block stands)))
  | hidden =>
    rw [List.mem_singleton.1 member]
    exact allMade_leaf (.token rfl)

theorem Trivia.allMade_concreteAll {pieces : List Trivia} {node : SyntaxNode}
    (stands : Text.StandsAt source start (Trivia.spellAll pieces))
    (member : node ∈ Trivia.concreteAll start pieces) : AllMade dialect source node := by
  induction pieces generalizing start with
  | nil => cases member
  | cons first rest inductionHypothesis =>
    have spelled : Trivia.spellAll (first :: rest) = first.spell ++ Trivia.spellAll rest :=
      List.flatMap_cons
    rw [spelled] at stands
    rcases List.mem_append.1 member with isFirst | inRest
    · exact Trivia.allMade_concrete stands.front isFirst
    · exact inductionHypothesis stands.back inRest

/-- The nodes in a name are made of the words and the trivia in it. -/
theorem TagName.allMade_concrete {written : TagName} {field : Option Field}
    (stands : Text.StandsAt source start written.spell) :
    AllMade dialect source (written.concrete start field) := by
  induction written generalizing start field with
  | simple word => exact allMade_leaf (@Made.name _ _ (.simple word) _ _ stands)
  | member object before after property inductionHypothesis =>
    have made := @Made.name dialect source _ start field stands
    obtain ⟨inObject, inFront, -, behind, -⟩ := Trivia.stands_around rfl stands
    refine allMade_iff.2 ⟨made, fun child member => ?_⟩
    simp only [TagName.concrete, SyntaxNode.children_mk, List.mem_append, List.mem_cons,
      List.not_mem_nil, or_false] at member
    rcases member with ((rfl | inBefore) | (rfl | inAfter)) | rfl
    · exact inductionHypothesis inObject
    · exact Trivia.allMade_concreteAll inFront inBefore
    · exact allMade_sign
    · exact Trivia.allMade_concreteAll behind inAfter
    · exact allMade_leaf (.token rfl)
  | qualified space before after suffix =>
    have made := @Made.name dialect source _ start field stands
    obtain ⟨inSpace, inFront, -, behind, inSuffix⟩ := Trivia.stands_around rfl stands
    refine allMade_iff.2 ⟨made, fun child member => ?_⟩
    simp only [TagName.concrete, SyntaxNode.children_mk, List.mem_append, List.mem_cons,
      List.not_mem_nil, or_false] at member
    rcases member with ((rfl | inBefore) | (rfl | inAfter)) | rfl
    · exact allMade_leaf (@Made.name _ _ (.simple space) _ _ inSpace)
    · exact Trivia.allMade_concreteAll inFront inBefore
    · exact allMade_sign
    · exact Trivia.allMade_concreteAll behind inAfter
    · exact allMade_leaf (@Made.name _ _ (.simple suffix) _ _ inSuffix)

namespace Phrase

mutual
/-- The nodes for a phrase are made of it and of what it holds. -/
theorem allMade_concrete (start : Nat) (phrase : Phrase)
    (stands : Text.StandsAt source start phrase.spell) (sound : phrase.WellFormed dialect) :
    ∀ node ∈ concrete start phrase, AllMade dialect source node := by
  intro node member
  cases phrase with
  | token text =>
    simp only [concrete, List.mem_singleton] at member
    rw [member]
    exact allMade_sign
  | gap trivia =>
    simp only [concrete] at member
    exact Trivia.allMade_concrete stands member
  | name written =>
    simp only [concrete, List.mem_singleton] at member
    rw [member]
    exact TagName.allMade_concrete stands
  | quoted text =>
    simp only [concrete, List.mem_singleton] at member
    rw [member]
    exact allMade_leaf (.token rfl)
  | construct kind parts =>
    simp only [concrete, List.mem_singleton] at member
    rw [member]
    simp only [spell] at stands
    refine allMade_inner (.construct sound stands) ?_
    cases sound with
    | construct _ _ _ inside => exact allMade_concreteAll start parts stands inside
  | attr parts =>
    simp only [concrete, List.mem_singleton] at member
    rw [member]
    simp only [spell] at stands
    cases sound with
    | attr isAttribute inside =>
      exact allMade_inner (.special (.attr isAttribute stands))
        (allMade_concreteAll start parts stands inside)
  | container inside =>
    simp only [concrete, List.mem_singleton] at member
    rw [member]
    simp only [spell] at stands
    have within := stands.tail.front
    refine allMade_enclosed (.special (.braces sound within)) ?_
    cases sound with
    | container _ sound => exact allMade_concreteAll (start + 1) inside within sound
  | selfClosing inside =>
    simp only [concrete, List.mem_singleton] at member
    rw [member]
    simp only [spell] at stands
    have within := stands.tail.front
    cases sound with
    | selfClosing opens sound =>
      exact allMade_enclosed (.special (.opening (.inr rfl) opens within))
        (allMade_concreteAll (start + 1) inside within sound)
  | element opening content closing =>
    simp only [concrete, List.mem_singleton] at member
    rw [member]
    obtain ⟨standsOpening, between, standsClosing⟩ := standsAt_element stands
    have inTag := standsOpening.back.front
    have inClosing := standsClosing.back.front
    cases sound with
    | element opens soundOpening soundContent soundClosing isContent =>
      refine allMade_inner (.special (.element isContent)) fun child isChild => ?_
      rcases List.mem_append.1 isChild with inFront | isLast
      · rcases List.mem_cons.1 inFront with rfl | inContent
        · exact allMade_enclosed (.special (.opening (.inl rfl) opens inTag))
            (allMade_concreteAll (start + 1) opening inTag soundOpening)
        · exact allMade_concreteContent _ content between soundContent child inContent
      · rw [List.mem_singleton.1 isLast]
        exact allMade_enclosed .closing (allMade_concreteAll _ closing inClosing soundClosing)

theorem allMade_concreteAll (start : Nat) (phrases : List Phrase)
    (stands : Text.StandsAt source start (spellAll phrases))
    (sound : ∀ phrase ∈ phrases, phrase.WellFormed dialect) :
    ∀ node ∈ concreteAll start phrases, AllMade dialect source node := by
  intro node member
  cases phrases with
  | nil => simp only [concreteAll, List.not_mem_nil] at member
  | cons phrase rest =>
    rw [spellAll_cons] at stands
    have behind := stands.back
    rw [← size_eq] at behind
    simp only [concreteAll] at member
    rcases List.mem_append.1 member with isFirst | inRest
    · exact allMade_concrete start phrase stands.front (sound phrase List.mem_cons_self) node
        isFirst
    · exact allMade_concreteAll _ rest behind
        (fun phrase member => sound phrase (List.mem_cons_of_mem _ member)) node inRest

theorem allMade_concreteContent (start : Nat) (content : List Phrase)
    (stands : Text.StandsAt source start (spellAll content))
    (sound : ∀ phrase ∈ content, phrase.WellFormed dialect) :
    ∀ node ∈ concreteContent start content, AllMade dialect source node := by
  intro node member
  cases content with
  | nil => simp only [concreteContent, List.not_mem_nil] at member
  | cons phrase rest =>
    rw [spellAll_cons] at stands
    have own := allMade_concrete start phrase stands.front (sound phrase List.mem_cons_self) node
    have behind := stands.back
    rw [← size_eq] at behind
    have others := allMade_concreteContent _ rest behind
      (fun phrase member => sound phrase (List.mem_cons_of_mem _ member)) node
    cases phrase with
    | token text =>
      simp only [concreteContent] at member
      simp only [size] at others
      rcases List.mem_cons.1 member with rfl | inRest
      · exact allMade_leaf (.token rfl)
      · exact others inRest
    | _ =>
      simp only [concreteContent] at member
      rcases List.mem_append.1 member with isFirst | inRest
      · exact own isFirst
      · exact others inRest
end

end Phrase

theorem Phrase.concreteAll_append (left right : List Phrase) :
    concreteAll start (left ++ right)
      = concreteAll start left ++ concreteAll (start + sizeAll left) right := by
  induction left generalizing start with
  | nil => simp [concreteAll, sizeAll]
  | cons first rest inductionHypothesis =>
    rw [List.cons_append]
    simp only [concreteAll, sizeAll, inductionHypothesis, List.append_assoc, Nat.add_assoc]

/-- Among the nodes for several phrases in a row, each one is a node for one of these. -/
theorem Phrase.exists_of_mem_concreteAll {phrases : List Phrase} {node : SyntaxNode}
    (stands : Text.StandsAt source start (Phrase.spellAll phrases))
    (member : node ∈ Phrase.concreteAll start phrases) :
    ∃ phrase ∈ phrases, ∃ place, Text.StandsAt source place phrase.spell
      ∧ node ∈ Phrase.concrete place phrase := by
  induction phrases generalizing start with
  | nil => simp only [Phrase.concreteAll, List.not_mem_nil] at member
  | cons first rest inductionHypothesis =>
    rw [spellAll_cons] at stands
    have behind := stands.back
    rw [← size_eq] at behind
    simp only [Phrase.concreteAll] at member
    rcases List.mem_append.1 member with isFirst | inRest
    · exact ⟨first, List.mem_cons_self, start, stands.front, isFirst⟩
    · obtain ⟨phrase, isPhrase, place⟩ := inductionHypothesis behind inRest
      exact ⟨phrase, List.mem_cons_of_mem _ isPhrase, place⟩

/-- What could be read is made of the phrases of the source. -/
theorem made_of_mem_parts (sound : (concrete dialect source).hasError = false) {node : SyntaxNode}
    (member : node ∈ (concrete dialect source).parts) : Made dialect source node := by
  refine (?_ : AllMade dialect source (concrete dialect source)) node member
  unfold concrete at sound ⊢
  cases read : phrases? dialect source with
  | none =>
    rw [read] at sound
    cases sound
  | some phrases =>
    have stands : Text.StandsAt source 0 (Phrase.spellAll phrases) := by
      rw [spellAll_of_phrases? read]
      exact .whole source
    exact allMade_iff.2 ⟨.root,
      Phrase.allMade_concreteAll 0 phrases stands (wellFormed_of_phrases? read)⟩

end FragmentLint.Grammar
