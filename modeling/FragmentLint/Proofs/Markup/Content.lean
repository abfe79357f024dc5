import FragmentLint.Proofs.Markup.Placement
import FragmentLint.Proofs.Text.Padding
import Mathlib.Data.List.Forall2

/-!
Contract: what the spans of placed markup cut out of the source.

Main statements: every node delimits a piece of the source (`Placed.delimits`), an element or
fragment stands in angle brackets (`Tags.Delimit.bracketed`), and what stands between its tags is
what its children stand for, one after the other (`Placed.inner`).
-/

namespace FragmentLint

open Grammar

variable {source : Text}

/-- Elements and fragments have tags. -/
theorem NodeKind.exists_tags {kind : NodeKind} (tagged : kind.isTagged = true) :
    ∃ tags, kind.tags? = some tags :=
  Option.isSome_iff_exists.1 ((isSome_tags? kind).trans tagged)

/-- What stands between tags begins where the opening tag ends. -/
@[simp] theorem Tags.start_inner (tags : Tags) : tags.inner.start = tags.opening.stop := by
  unfold inner
  split <;> rfl

namespace Tags.Delimit

variable {span : Span} {tags : Tags}

/-- What stands between tags, the tags included, stands in angle brackets. -/
theorem bracketed (delimit : tags.Delimit source span) :
    ∃ piece, span.Delimits source piece ∧ piece.Bracketed := by
  cases delimit with
  | @pair opening inner closing delimits =>
    exact ⟨_, delimits, opening ++ '>' :: (inner ++ '<' :: '/' :: closing), by simp⟩
  | @single inside delimits => exact ⟨_, delimits, inside ++ ['/'], by simp⟩

/-- There is nothing behind a tag that closes itself. Otherwise two tags, of two and of three bytes
at least, stand around what is between them. -/
theorem inner_cases (delimit : tags.Delimit source span) :
    tags.inner = ⟨span.stop, span.stop⟩ ∧ span.start + 3 ≤ span.stop
      ∨ span.start + 2 ≤ tags.inner.start ∧ tags.inner.start ≤ tags.inner.stop
        ∧ tags.inner.stop + 3 ≤ span.stop := by
  have less : Char.utf8Size '<' = 1 := by decide
  have slash : Char.utf8Size '/' = 1 := by decide
  have greater : Char.utf8Size '>' = 1 := by decide
  cases delimit with
  | @pair opening inner closing delimits innerStart innerStop innerStartEq innerStopEq =>
    have stopEq := delimits.stop_eq
    simp only [Text.bytes_cons, Text.bytes_append, Text.bytes_nil, less, slash, greater] at stopEq
    refine Or.inr ⟨?_, ?_, ?_⟩
    · show span.start + 2 ≤ innerStart
      omega
    · show innerStart ≤ innerStop
      omega
    · show innerStop + 3 ≤ span.stop
      omega
  | @single inside delimits =>
    have stopEq := delimits.stop_eq
    simp only [Text.bytes_cons, Text.bytes_append, Text.bytes_nil, less, slash, greater] at stopEq
    exact Or.inl ⟨rfl, by omega⟩

/-- Two tags and what stands between them are three pieces of the source, from the beginning of a
node to its end. -/
theorem parts {opening closing : Span} (delimit : Delimit source span ⟨opening, some closing⟩) :
    ((∃ piece, opening.Delimits source piece)
      ∧ (∃ piece, Span.Delimits ⟨opening.stop, closing.start⟩ source piece)
      ∧ ∃ piece, closing.Delimits source piece)
      ∧ opening.start = span.start ∧ closing.stop = span.stop := by
  cases delimit with
  | @pair first inner last delimits innerStart innerStop innerStartEq innerStopEq =>
    have stopEq := delimits.stop_eq
    have size : Text.bytes ('<' :: (first ++ ['>'])) = Text.bytes first + 2 := by
      have less : Char.utf8Size '<' = 1 := by decide
      have greater : Char.utf8Size '>' = 1 := by decide
      simp only [Text.bytes_cons, Text.bytes_append, Text.bytes_nil, less, greater]
      omega
    have split : '<' :: (first ++ '>' :: (inner ++ '<' :: '/' :: (last ++ ['>'])))
        = ('<' :: (first ++ ['>'])) ++ (inner ++ '<' :: '/' :: (last ++ ['>'])) := by simp
    rw [split] at delimits stopEq
    rw [Text.bytes_append, Text.bytes_append, size] at stopEq
    have stands : Text.StandsAt source span.start
        (('<' :: (first ++ ['>'])) ++ (inner ++ '<' :: '/' :: (last ++ ['>']))) := by
      unfold Text.StandsAt
      rw [Text.bytes_append, Text.bytes_append, size, ← stopEq]
      exact delimits
    have opens := stands.front
    have holds := stands.back.front
    have closes := stands.back.back
    unfold Text.StandsAt at opens holds closes
    rw [size, ← Nat.add_assoc, ← innerStartEq] at opens holds closes
    rw [← innerStopEq] at holds closes
    have closesThere : innerStop + Text.bytes ('<' :: '/' :: (last ++ ['>'])) = span.stop := by
      omega
    rw [closesThere] at closes
    exact ⟨⟨⟨_, opens⟩, ⟨_, holds⟩, _, closes⟩, rfl, rfl⟩

theorem inner (delimit : tags.Delimit source span) :
    ∃ piece, tags.inner.Delimits source piece := by
  obtain ⟨opening, closing⟩ := tags
  cases closing with
  | some closing => exact delimit.parts.1.2.1
  | none =>
    cases delimit with
    | single delimits => exact ⟨[], Text.slice?_self (Text.isBoundary_stop delimits)⟩

end Tags.Delimit

namespace Outline

theorem Placed.delimits {outline : Outline} (placed : Placed source outline) :
    ∃ piece, outline.span.Delimits source piece := by
  cases placed with
  | text delimits => exact ⟨_, delimits⟩
  | empty delimits => exact ⟨_, delimits⟩
  | other delimits => exact ⟨_, delimits⟩
  | container delimits => exact ⟨_, delimits⟩
  | tagged _ delimit =>
    obtain ⟨piece, delimits, -⟩ := delimit.bracketed
    exact ⟨piece, delimits⟩
  | root _ delimits => exact ⟨_, delimits⟩

/-- The text of a text node is what stands in the source there, and there is some. -/
theorem Placed.visible_text {outline : Outline} (placed : Placed source outline) {raw : Text}
    (isText : outline.kind.text? = some raw) : raw ≠ [] ∧ outline.span.Delimits source raw := by
  cases placed with
  | text delimits visible =>
    cases isText
    exact ⟨visible, delimits⟩
  | empty => cases isText
  | other => cases isText
  | container => cases isText
  | @tagged kind _ _ _ _ tagsEq =>
    cases kind <;> simp [NodeKind.tags?, NodeKind.text?, Outline.kind] at tagsEq isText
  | @root kind _ _ _ context =>
    cases kind <;> simp [NodeKind.isContext, NodeKind.text?, Outline.kind] at context isText

/-- A pair of braces takes at least two bytes. -/
theorem Placed.size_of_container {outline : Outline} (placed : Placed source outline)
    (isContainer : outline.kind = .container) : outline.span.start + 2 ≤ outline.span.stop := by
  have braced : ∃ piece, outline.span.Delimits source piece ∧ piece.Braced := by
    cases placed with
    | text => cases isContainer
    | empty => cases isContainer
    | other => cases isContainer
    | container delimits braced => exact ⟨_, delimits, braced⟩
    | tagged tagsEq =>
      obtain rfl := isContainer
      cases tagsEq
    | root _ delimits braced => exact ⟨_, delimits, braced isContainer⟩
  obtain ⟨_, delimits, inside, rfl⟩ := braced
  have opening : Char.utf8Size '\x7b' = 1 := by decide
  have closing : Char.utf8Size '\x7d' = 1 := by decide
  have stopEq := delimits.stop_eq
  simp only [Text.bytes_cons, Text.bytes_append, Text.bytes_nil, opening, closing] at stopEq
  omega

/-- Placed outlines delimit pieces of the source. -/
theorem exists_pieces {outlines : List Outline}
    (placed : ∀ outline ∈ outlines, Placed source outline) :
    ∃ pieces, List.Forall₂ (fun outline piece => outline.span.Delimits source piece)
      outlines pieces := by
  induction outlines with
  | nil => exact ⟨[], .nil⟩
  | cons first rest inductionHypothesis =>
    obtain ⟨piece, delimits⟩ := (placed first List.mem_cons_self).delimits
    obtain ⟨pieces, delimitAll⟩ := inductionHypothesis
      fun outline member => placed outline (List.mem_cons_of_mem _ member)
    exact ⟨piece :: pieces, .cons delimits delimitAll⟩

/-- Outlines that tile a place delimit the pieces that the place falls apart into. -/
theorem Tiled.slice? {outlines : List Outline} {pieces : List Text} {start stop : Nat}
    (tiled : Tiled start outlines stop) (boundary : Text.isBoundary source start = true)
    (delimit : List.Forall₂ (fun outline piece => outline.span.Delimits source piece)
      outlines pieces) :
    Text.slice? source start stop = some pieces.flatten := by
  induction delimit generalizing start with
  | nil =>
    have same : start = stop := tiled
    rw [← same]
    exact Text.slice?_self boundary
  | @cons outline piece _ _ delimits _ inductionHypothesis =>
    obtain ⟨startEq, others⟩ := tiled
    have here : Text.slice? source start outline.span.stop = some piece := by
      rw [← startEq]
      exact delimits
    exact Text.slice?_trans here (inductionHypothesis others (Text.isBoundary_stop delimits))

/-- What is known about a placed outline with tags. -/
structure Holds (source : Text) (outline : Outline) (tags : Tags) : Prop where
  delimit : tags.Delimit source outline.span
  tiled : Tiled tags.inner.start outline.children tags.inner.stop
  apart : outline.children.IsChain Apart
  content : ∀ child ∈ outline.children, child.kind.isContent = true

/-- A placed outline with tags is made of these and of the children that tile what stands between
them. -/
theorem Placed.holds {outline : Outline} {tags : Tags} (placed : Placed source outline)
    (tagsEq : outline.kind.tags? = some tags) : Holds source outline tags := by
  cases placed with
  | text => cases tagsEq
  | empty => cases tagsEq
  | other => cases tagsEq
  | container => cases tagsEq
  | @tagged kind span tags' aside children tagsEq' delimit _ _ tiled apart content =>
    have same : kind.tags? = some tags := tagsEq
    rw [tagsEq'] at same
    obtain rfl := Option.some.inj same
    exact ⟨delimit, tiled, apart, content⟩
  | @root kind span _ _ context =>
    have tagged : kind.tags? = some tags := tagsEq
    cases kind <;> simp [NodeKind.isContext, NodeKind.tags?] at context tagged

theorem Placed.exists_inner {outline : Outline} {tags : Tags} (placed : Placed source outline)
    (tagsEq : outline.kind.tags? = some tags) :
    ∃ piece, tags.inner.Delimits source piece :=
  (placed.holds tagsEq).delimit.inner

/-- What stands between the tags of a placed outline is what its children stand for. -/
theorem Placed.inner {outline : Outline} {tags : Tags} {pieces : List Text}
    (placed : Placed source outline) (tagsEq : outline.kind.tags? = some tags)
    (delimit : List.Forall₂ (fun child piece => child.span.Delimits source piece)
      outline.children pieces) :
    tags.inner.Delimits source pieces.flatten := by
  have holds := placed.holds tagsEq
  obtain ⟨piece, inner⟩ := holds.delimit.inner
  exact holds.tiled.slice? (Text.isBoundary_start inner) delimit

end Outline

end FragmentLint
