import FragmentLint.Proofs.Rule.Removal

/-!
Contract: the children of a node that are no padding.

Padding is text, and no two texts stand next to each other, so a node without other children than
texts has at most one. Main statement: with one child that is no padding, this is an element or
fragment, or a pair of braces, or all children are text (`lone_cases`).

Does not own: what the number of these children means for a verdict.
-/

namespace FragmentLint

theorem NodeKind.isSome_text?_of_isPadding {kind : NodeKind} (padding : kind.isPadding = true) :
    kind.text?.isSome = true := by
  cases kind <;> simp [isPadding, text?] at padding ⊢

/-- What may stand between two tags is an element or fragment, or text, or a pair of braces. -/
theorem NodeKind.isTagged_or_text_or_container {kind : NodeKind} (content : kind.isContent = true) :
    kind.isTagged = true ∨ kind.text?.isSome = true ∨ kind = .container := by
  cases kind <;> simp [isContent, isTagged, text?] at content ⊢

namespace Outline

variable {source : Text} {entry : Entry} {tags : Tags}

theorem eq_singleton_of_texts {children : List Outline} (apart : children.IsChain Apart)
    (texts : ∀ child ∈ children, child.kind.text?.isSome = true) (occupied : children ≠ []) :
    ∃ only, children = [only] := by
  match children, apart with
  | [], _ => exact absurd rfl occupied
  | [only], _ => exact ⟨only, rfl⟩
  | first :: second :: rest, .cons_cons apart _ =>
    have firstText := texts first List.mem_cons_self
    have secondText := texts second (List.mem_cons_of_mem _ List.mem_cons_self)
    rcases apart with noText | noText
    · rw [Option.isNone_iff_eq_none.1 noText] at firstText
      cases firstText
    · rw [Option.isNone_iff_eq_none.1 noText] at secondText
      cases secondText

/-- Outlines without those that are padding. -/
def withoutPadding (children : List Outline) : List Outline :=
  children.filter fun child => !child.kind.isPadding

theorem mem_of_withoutPadding {children : List Outline} {child : Outline}
    (member : child ∈ withoutPadding children) : child ∈ children :=
  (List.mem_filter.1 member).1

theorem countedChildren_eq (entry : Entry) :
    entry.site.countedChildren = (withoutPadding entry.outline.children).map child := by
  show (entry.outline.children.map child).filter Child.counts = _
  rw [List.filter_map]
  rfl

/-- Among texts and padding there is only one text, which is a value unless the parent is markup. -/
theorem isTextValue_of_texts (placed : Placed source entry.outline)
    (tagsEq : entry.outline.kind.tags? = some tags)
    (texts : ∀ child ∈ entry.outline.children, child.kind.text?.isSome = true)
    (occupied : entry.outline.children ≠ []) :
    entry.site.isTextValue = !entry.site.isInMarkup := by
  obtain ⟨only, single⟩ := eq_singleton_of_texts (placed.holds tagsEq).apart texts occupied
  have isText : only.kind.text?.isSome = true := by
    apply texts
    rw [single]
    exact List.mem_cons_self
  have children : entry.site.children = [only.child] := by
    show entry.outline.children.map child = [only.child]
    rw [single]
    rfl
  unfold Site.isTextValue
  rw [children]
  show (only.kind.text?.isSome && !entry.site.isInMarkup) = !entry.site.isInMarkup
  rw [isText, Bool.true_and]

/-- Padding is text. -/
theorem texts_of_withoutPadding_eq_nil {children : List Outline}
    (none : withoutPadding children = []) : ∀ child ∈ children, child.kind.text?.isSome = true := by
  intro child member
  have padding := List.filter_eq_nil_iff.1 none child member
  exact NodeKind.isSome_text?_of_isPadding (by simpa using padding)

/-- A child with nothing but padding around it is an element or fragment, or a pair of braces, or all
children are text. -/
theorem lone_cases (placed : Placed source entry.outline)
    (tagsEq : entry.outline.kind.tags? = some tags) {only : Outline}
    (lone : withoutPadding entry.outline.children = [only]) :
    only.kind.isTagged = true ∨ only.kind = .container
      ∨ ∀ child ∈ entry.outline.children, child.kind.text?.isSome = true := by
  have member : only ∈ entry.outline.children := mem_of_withoutPadding (by rw [lone]; simp)
  rcases NodeKind.isTagged_or_text_or_container ((placed.holds tagsEq).content only member)
    with tagged | isText | isContainer
  · exact Or.inl tagged
  · refine Or.inr (Or.inr ?_)
    intro child isChild
    by_cases padding : child.kind.isPadding = true
    · exact NodeKind.isSome_text?_of_isPadding padding
    · have counts : child ∈ withoutPadding entry.outline.children :=
        List.mem_filter.2 ⟨isChild, by simp [padding]⟩
      rw [lone, List.mem_singleton] at counts
      rw [counts]
      exact isText
  · exact Or.inr (Or.inl isContainer)

end Outline

end FragmentLint
