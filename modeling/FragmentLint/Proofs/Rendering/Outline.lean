import FragmentLint.Proofs.Markup.Content
import FragmentLint.Proofs.Markup.Records
import FragmentLint.Proofs.Rendering.Spelling
import FragmentLint.Rule.Verdict

/-!
Contract: what markup renders.

Text renders what it is compiled to, vacant braces render nothing, a fragment without a key renders
what its children render, and any other child is an item of its own. Main statements: what stands
between two tags is content in which no texts meet (`isChain_contents`) and which is solid but for
its texts (`Placed.isSolid_content`), and its source is what stands between the tags
(`Placed.inner_contents`).
-/

namespace FragmentLint

open Rendering

theorem Text.Braced.solid {piece : Text} (braced : piece.Braced) : piece.Solid := by
  obtain ⟨inside, rfl⟩ := braced
  exact Text.solid_of_visible (by decide) (by decide) inside

namespace Outline

/-- The source of an outline. -/
def sourceIn (source : Text) (outline : Outline) : Text :=
  (Text.slice? source outline.span.start outline.span.stop).getD []

mutual
/-- What an outline renders as a child of an element or a fragment. -/
def rendered (source : Text) (pragmas : Pragmas) : Outline → List Piece
  | .node kind span aside children =>
    match kind.text? with
    | some raw => Rendering.string (Text.compiled raw)
    | none =>
      if Child.isVacant ⟨kind, children.head?.map Outline.kind⟩ then []
      else if kind.isWrapper pragmas && !kind.isKeyed then renderedAll source pragmas children
      else [.item (sourceIn source (.node kind span aside children))]

/-- What the children of an element or a fragment render, in order. -/
def renderedAll (source : Text) (pragmas : Pragmas) : List Outline → List Piece
  | [] => []
  | first :: rest => rendered source pragmas first ++ renderedAll source pragmas rest
end

/-- An outline as content: a text, or something else that renders what it renders. -/
def content (source : Text) (pragmas : Pragmas) (outline : Outline) : Content :=
  match outline.kind.text? with
  | some raw => .text raw
  | none => .other (outline.sourceIn source) (outline.rendered source pragmas)

/-- Outlines as contents. -/
def contents (source : Text) (pragmas : Pragmas) (outlines : List Outline) : List Content :=
  outlines.map (content source pragmas)

variable {source : Text} {pragmas : Pragmas}

theorem pieces_content (outline : Outline) :
    (content source pragmas outline).pieces = rendered source pragmas outline := by
  cases outline with
  | node kind span aside children =>
    cases isText : kind.text? with
    | some raw =>
      simp only [content, Outline.kind, isText, rendered]
      rfl
    | none =>
      simp only [content, Outline.kind, isText]
      rfl

/-- Outlines render what they render as contents. -/
theorem renderedAll_eq (outlines : List Outline) :
    renderedAll source pragmas outlines = Content.piecesAll (contents source pragmas outlines) := by
  induction outlines with
  | nil => simp only [renderedAll, contents, Content.piecesAll, List.map_nil, List.flatMap_nil]
  | cons head rest inductionHypothesis =>
    simp only [renderedAll, inductionHypothesis]
    rw [← pieces_content head]
    rfl

theorem isText_content (outline : Outline) :
    (content source pragmas outline).isText = !outline.kind.text?.isNone := by
  unfold content
  cases outline.kind.text? <;> rfl

theorem isChain_contents {outlines : List Outline} (apart : outlines.IsChain Outline.Apart) :
    (contents source pragmas outlines).IsChain Content.Apart := by
  refine (List.isChain_map _).2 (apart.imp ?_)
  intro left right leftOrRight
  unfold Content.Apart
  rw [isText_content, isText_content, Bool.not_eq_false', Bool.not_eq_false']
  exact leftOrRight

theorem sourceIn_eq {outline : Outline} {piece : Text}
    (delimits : outline.span.Delimits source piece) :
    outline.sourceIn source = piece := by
  unfold sourceIn
  rw [show Text.slice? source outline.span.start outline.span.stop = some piece from delimits]
  rfl

/-- What stands between two tags and is no text begins and ends with something to see. -/
theorem Placed.exists_solid {outline : Outline} (placed : Placed source outline)
    (isContent : outline.kind.isContent = true) (noText : outline.kind.text? = none) :
    ∃ piece, outline.span.Delimits source piece ∧ piece.Solid := by
  cases placed with
  | text => cases noText
  | empty => cases isContent
  | other => cases isContent
  | container delimits braced => exact ⟨_, delimits, braced.solid⟩
  | tagged _ delimit =>
    obtain ⟨piece, delimits, bracketed⟩ := delimit.bracketed
    exact ⟨piece, delimits, bracketed.solid⟩
  | @root kind _ _ _ context delimits braced =>
    have isContainer : kind = .container := by
      cases kind <;>
        simp [NodeKind.isContext, NodeKind.isContent, Outline.kind] at context isContent ⊢
    exact ⟨_, delimits, (braced isContainer).solid⟩

theorem Placed.isSolid_content {outline : Outline} (placed : Placed source outline)
    (isContent : outline.kind.isContent = true) : (content source pragmas outline).IsSolid := by
  unfold content
  cases isText : outline.kind.text? with
  | some raw => exact trivial
  | none =>
    obtain ⟨piece, delimits, solid⟩ := placed.exists_solid isContent isText
    show Text.Solid (outline.sourceIn source)
    rw [sourceIn_eq delimits]
    exact solid

theorem Placed.spell_content {outline : Outline} (placed : Placed source outline) :
    (content source pragmas outline).spell = outline.sourceIn source := by
  unfold content
  cases isText : outline.kind.text? with
  | some raw => exact (sourceIn_eq (placed.visible_text isText).2).symm
  | none => rfl

/-- Outlines that tile a place have their sources there, one after the other. -/
theorem Tiled.slice?_contents {outlines : List Outline} {start stop : Nat}
    (tiled : Tiled start outlines stop) (boundary : Text.isBoundary source start = true)
    (placed : ∀ outline ∈ outlines, Placed source outline) :
    Text.slice? source start stop = some (Content.spellAll (contents source pragmas outlines)) := by
  have delimit : List.Forall₂ (fun outline piece => outline.span.Delimits source piece)
      outlines (outlines.map (sourceIn source)) := by
    rw [List.forall₂_map_right_iff]
    refine List.forall₂_same.2 ?_
    intro outline member
    obtain ⟨piece, delimits⟩ := (placed outline member).delimits
    rw [sourceIn_eq delimits]
    exact delimits
  have spelled : Content.spellAll (contents source pragmas outlines)
      = (outlines.map (sourceIn source)).flatten := by
    unfold Content.spellAll contents
    rw [List.flatMap_def, List.map_map]
    congr 1
    apply List.map_congr_left
    intro outline member
    exact (placed outline member).spell_content
  rw [spelled]
  exact tiled.slice? boundary delimit

/-- What stands between the tags of a placed outline is the source of its children. -/
theorem Placed.inner_contents {outline : Outline} {tags : Tags} (placed : Placed source outline)
    (tagsEq : outline.kind.tags? = some tags) :
    tags.inner.Delimits source (Content.spellAll (contents source pragmas outline.children)) := by
  have holds := placed.holds tagsEq
  obtain ⟨piece, inner⟩ := holds.delimit.inner
  exact holds.tiled.slice?_contents (Text.isBoundary_start inner) placed.children

/-- A stretch of outlines falls apart where two of them meet. -/
theorem Tiled.exists_middle {start stop : Nat} {left right : List Outline}
    (tiled : Tiled start (left ++ right) stop) :
    ∃ middle, Tiled start left middle ∧ Tiled middle right stop := by
  induction left generalizing start with
  | nil => exact ⟨start, rfl, tiled⟩
  | cons head rest inductionHypothesis =>
    obtain ⟨startEq, others⟩ := tiled
    obtain ⟨middle, first, second⟩ := inductionHypothesis others
    exact ⟨middle, ⟨startEq, first⟩, second⟩

end Outline

end FragmentLint
