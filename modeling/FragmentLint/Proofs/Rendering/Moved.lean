import FragmentLint.Proofs.Markup.Shift
import FragmentLint.Proofs.Markup.Written
import FragmentLint.Proofs.Rendering.Outline

/-!
Contract: markup renders the same wherever its text stands.

An element, a fragment or a pair of braces that is read in a text renders what it renders where the
text stands further back in a source; neither the offset nor the nodes above it matter. Main
statement: `rendered_ofChild_shift`.
-/

namespace FragmentLint.Outline

open SyntaxNode Rendering

variable {source text : Text} {pragmas : Pragmas} {offset : Nat} {ancestors : List SyntaxNode}
  {node : SyntaxNode}

/-- What is no text and no pair of braces renders its children if it is a fragment without a key,
and is an item of its own otherwise. -/
theorem rendered_of_other {kind : NodeKind} {span : Span} {aside children : List Outline}
    (noText : kind.text? = none) (noBraces : kind ≠ .container) :
    rendered source pragmas (.node kind span aside children)
      = if kind.isWrapper pragmas && !kind.isKeyed then renderedAll source pragmas children
        else [.item (textAt source span)] := by
  have notVacant : Child.isVacant ⟨kind, children.head?.map Outline.kind⟩ = false := by
    unfold Child.isVacant
    rw [Bool.and_eq_false_iff]
    exact Or.inl (by simpa using noBraces)
  simp only [rendered, noText, notVacant]
  rfl

theorem rendered_of_tags {kind : NodeKind} {tags : Tags} {span : Span}
    {aside children : List Outline} (tagsEq : kind.tags? = some tags) :
    rendered source pragmas (.node kind span aside children)
      = if kind.isWrapper pragmas && !kind.isKeyed then renderedAll source pragmas children
        else [.item (textAt source span)] := by
  apply rendered_of_other
  · cases kind <;> first | rfl | cases tagsEq
  · rintro rfl
    cases tagsEq

/-- Braces without an expression render nothing, and others are an item of their own. -/
theorem rendered_ofBraces (ancestors : List SyntaxNode) (braces : SyntaxNode) :
    rendered source pragmas (ofBraces source ancestors braces)
      = if braces.expression?.isNone then [] else [.item (textAt source braces.span)] := by
  cases found : braces.expression? with
  | none =>
    rw [ofBraces_of_none found]
    simp only [rendered]
    rfl
  | some expression =>
    have occupied (above : List SyntaxNode) (inner : SyntaxNode) :
        ((ofExpression source above inner).kind == .empty) = false := by
      unfold ofExpression
      rw [beq_eq_false_iff_ne]
      split
      · rcases @kind_ofMarkup source above inner with tagged | ⟨construct, kindEq⟩
        · intro none
          rw [none] at tagged
          cases tagged
        · rw [kindEq]
          simp
      · simp [Outline.kind]
    rw [ofBraces_of_some found]
    simp only [rendered, Child.isVacant, List.head?_cons, Option.map_some]
    simp [occupied, NodeKind.text?, NodeKind.isWrapper, sourceIn, textAt, Outline.span]

/-! ## Markup that stands further back -/

theorem textAt_shift (window : Text.StandsAt source offset text) {span : Span}
    (sound : span.Sound text) : textAt source (span.shift offset) = textAt text span := by
  obtain ⟨piece, delimits⟩ := Span.sound_iff_delimits.1 sound
  unfold textAt
  rw [show Text.slice? text span.start span.stop = some piece from delimits,
    show Text.slice? source (span.shift offset).start (span.shift offset).stop = some piece from
      delimits.shift window]

/-- A shifted tag opens an element that is a fragment and has a key where the tag does. -/
theorem elementOf_shift (pragmas : Pragmas) (window : Text.StandsAt source offset text)
    {tag : SyntaxNode} (stands : tag.StandsIn text) (tags tags' : Tags) :
    (elementOf source (tag.shift offset) tags').isWrapper pragmas
        = (elementOf text tag tags).isWrapper pragmas
      ∧ (elementOf source (tag.shift offset) tags').isKeyed
        = (elementOf text tag tags).isKeyed := by
  obtain ⟨kind, lowered⟩ := Lowering.exists_lowerElement stands tags
  obtain ⟨name, attributes, rfl, -⟩ := Lowering.lowerElement_eq_ok_iff.1 lowered
  have loweredShifted := Lowering.lowerElement_shift window tags' lowered
  unfold elementOf
  rw [lowered, loweredShifted]
  refine ⟨rfl, ?_⟩
  simp only [NodeKind.isKeyed, NodeKind.element?, Option.any_some, List.any_map]
  rfl

theorem renderedAll_ofText_shift (pragmas : Pragmas) (window : Text.StandsAt source offset text)
    {start stop : Nat} (first : Text.isBoundary text start = true)
    (last : Text.isBoundary text stop = true) :
    renderedAll source pragmas (ofText source (start + offset) (stop + offset))
      = renderedAll text pragmas (ofText text start stop) := by
  unfold ofText
  simp only [Nat.add_lt_add_iff_right]
  split
  · obtain ⟨piece, delimits⟩ := Text.exists_slice?_of_le first last (Nat.le_of_lt ‹_›)
    have sound : Span.Sound text ⟨start, stop⟩ := Span.sound_iff_delimits.2 ⟨piece, delimits⟩
    have same := textAt_shift window sound
    simp only [renderedAll, rendered, NodeKind.text?]
    rw [← same]
    rfl
  · simp only [renderedAll]

theorem renderedAll_append (left right : List Outline) :
    renderedAll source pragmas (left ++ right)
      = renderedAll source pragmas left ++ renderedAll source pragmas right := by
  rw [renderedAll_eq, renderedAll_eq, renderedAll_eq, contents, List.map_append,
    Content.piecesAll_append]
  rfl

theorem rendered_ofTags_shift (window : Text.StandsAt source offset text) {opening : SyntaxNode}
    (stands : opening.StandsIn text) {tags tags' : Tags} {span : Span} (sound : span.Sound text)
    {aside aside' children children' : List Outline}
    (same : renderedAll source pragmas children' = renderedAll text pragmas children) :
    rendered source pragmas
        (ofTags source (opening.shift offset) tags' (span.shift offset) aside' children')
      = rendered text pragmas (ofTags text opening tags span aside children) := by
  unfold ofTags
  rw [tagName?_shift, Option.isSome_map]
  split
  · obtain ⟨isWrapper, isKeyed⟩ := elementOf_shift pragmas window stands tags tags'
    rw [rendered_of_tags tags?_elementOf, rendered_of_tags tags?_elementOf, isWrapper, isKeyed,
      same, textAt_shift window sound]
  · rw [rendered_of_tags rfl, rendered_of_tags rfl, same, textAt_shift window sound]
    rfl

/-- Markup renders what it renders where its text stands further back. -/
theorem rendered_shift (window : Text.StandsAt source offset text) :
    (∀ (_ : List SyntaxNode) (_ : SyntaxNode), True)
    ∧ (∀ (_ : List SyntaxNode) (_ : List SyntaxNode), True)
    ∧ (∀ ancestors node, node.StandsIn text → ∀ above,
      rendered source pragmas (ofMarkup source above (node.shift offset))
        = rendered text pragmas (ofMarkup text ancestors node))
    ∧ (∀ ancestors start stop structural, (∀ child ∈ structural, child.StandsIn text) →
      Text.isBoundary text start = true → Text.isBoundary text stop = true → ∀ above,
      renderedAll source pragmas (childrenIn source above (start + offset) (stop + offset)
          (structural.map (SyntaxNode.shift offset)))
        = renderedAll text pragmas (childrenIn text ancestors start stop structural))
    ∧ ∀ ancestors node, node.StandsIn text → ∀ above,
      rendered source pragmas (ofBraces source above (node.shift offset))
        = rendered text pragmas (ofBraces text ancestors node) := by
  -- The cases are those of `roots`, `rootsIn`, `ofMarkup`, `childrenIn` and `ofBraces`, in turn.
  apply roots.mutual_induct text
  case case1 => exact fun _ _ _ _ => trivial
  case case2 => exact fun _ _ _ _ => trivial
  case case3 => exact fun _ => trivial
  case case4 => exact fun _ _ _ _ _ => trivial
  case case5 =>
    intro ancestors node single _ stands above
    have single' : (node.shift offset).kind == .jsxSelfClosing := by rwa [kind_shift]
    obtain ⟨isWrapper, isKeyed⟩ := elementOf_shift pragmas window stands
      ⟨node.span, none⟩ ⟨(node.shift offset).span, none⟩
    rw [ofMarkup_of_selfClosing single, ofMarkup_of_selfClosing single',
      rendered_of_tags tags?_elementOf, rendered_of_tags tags?_elementOf, isWrapper, isKeyed,
      span_shift, textAt_shift window stands.sound]
    simp only [renderedAll]
  case case6 =>
    intro ancestors node paired opening closing opens closes tags _ children stands above
    have standsOpening := stands.child (mem_of_openingTag? opens)
    have standsClosing := stands.child (mem_of_closingTag? closes)
    have paired' : ¬ (node.shift offset).kind == .jsxSelfClosing := by rwa [kind_shift]
    have opens' : (node.shift offset).openingTag? = some (opening.shift offset) := by
      rw [openingTag?_shift, opens, Option.map_some]
    have closes' : (node.shift offset).closingTag? = some (closing.shift offset) := by
      rw [closingTag?_shift, closes, Option.map_some]
    have between := structuralIn_shift offset node
      ⟨opening.span.stop, closing.span.start⟩
    rw [ofMarkup_of_tags paired opens closes, ofMarkup_of_tags paired' opens' closes', span_shift,
      span_shift, span_shift]
    refine rendered_ofTags_shift window standsOpening stands.sound ?_
    refine Eq.trans (congrArg _ (congrArg _ between)) ?_
    exact children (fun child member => stands.child (mem_children_of_mem_structuralIn member))
      standsOpening.sound.last standsClosing.sound.first _
  case case7 =>
    intro ancestors node paired missing stands above
    have paired' : ¬ (node.shift offset).kind == .jsxSelfClosing := by rwa [kind_shift]
    rw [ofMarkup_of_missing paired missing, ofMarkup_of_missing paired',
      rendered_of_other rfl (by simp), rendered_of_other rfl (by simp), span_shift,
      textAt_shift window stands.sound]
    · rfl
    · intro opening closing opens closes
      rw [openingTag?_shift] at opens
      rw [closingTag?_shift] at closes
      obtain ⟨ownOpening, ownOpens, -⟩ := Option.map_eq_some_iff.1 opens
      obtain ⟨ownClosing, ownCloses, -⟩ := Option.map_eq_some_iff.1 closes
      exact missing ownOpening ownClosing ownOpens ownCloses
  case case8 =>
    intro ancestors start stop _ first last above
    rw [List.map_nil, childrenIn_nil, childrenIn_nil]
    exact renderedAll_ofText_shift pragmas window first last
  case case9 =>
    intro ancestors start stop child rest braces markup others stand first last above
    have standsChild := stand child List.mem_cons_self
    have behind := others (fun node member => stand node (List.mem_cons_of_mem _ member))
      standsChild.sound.last last above
    have own : rendered source pragmas (ofChild source above (child.shift offset))
        = rendered text pragmas (ofChild text ancestors child) := by
      unfold ofChild
      rw [kind_shift]
      split
      · exact braces standsChild above
      · exact markup standsChild above
    have gap := renderedAll_ofText_shift pragmas window first standsChild.sound.first
    rw [List.map_cons, childrenIn_cons, childrenIn_cons, renderedAll_append, renderedAll_append,
      renderedAll, renderedAll, own, span_shift]
    exact congr (congrArg _ gap) (congrArg _ behind)
  case case10 =>
    intro ancestors node empty stands above
    rw [rendered_ofBraces, rendered_ofBraces, expression?_shift, Option.isNone_map, span_shift,
      textAt_shift window stands.sound]
  case case11 =>
    intro ancestors node expression found inner _ _ stands above
    rw [rendered_ofBraces, rendered_ofBraces, expression?_shift, Option.isNone_map, span_shift,
      textAt_shift window stands.sound]

/-- What stands between two tags and is no text renders the same wherever its text stands. -/
theorem rendered_ofChild_shift (window : Text.StandsAt source offset text)
    (stands : node.StandsIn text) (above : List SyntaxNode) :
    rendered source pragmas (ofChild source above (node.shift offset))
      = rendered text pragmas (ofChild text ancestors node) := by
  obtain ⟨-, -, markup, -, braces⟩ := @rendered_shift source text pragmas offset window
  unfold ofChild
  rw [kind_shift]
  split
  · exact braces ancestors node stands above
  · exact markup ancestors node stands above

end FragmentLint.Outline
