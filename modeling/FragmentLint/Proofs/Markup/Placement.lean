import FragmentLint.Proofs.Markup.Guarantees
import FragmentLint.Proofs.Markup.Readout
import Mathlib.Data.List.Chain

/-!
Contract: where the nodes of a source stand in it.

The markup that is found in a concrete tree is `Placed` in the source: every node delimits whole
characters, a tagged node is made of its tags and of children that tile what stands between them, no
two stretches of text are neighbours, and markup that is no content of other markup has a root of
its own that encloses it. Main statements: a place is filled step by step (`Fills.step`), and what
is found in a place has a root there (`rooted_under`).

Owns: what it means to be placed.
Does not own: that what is read off a concrete tree is placed.
-/

namespace FragmentLint

open Grammar

/-- Whether a piece of text stands in braces. -/
def Text.Braced (piece : Text) : Prop := ∃ inside, piece = '\x7b' :: (inside ++ ['\x7d'])

/-- The tags of a node as its source has them: an opening and a closing tag around whatever the node
holds, or a single tag that closes itself. -/
inductive Tags.Delimit (source : Text) (span : Span) : Tags → Prop where
  | pair {opening inner closing : Text}
      (delimits : span.Delimits source
        ('<' :: (opening ++ '>' :: (inner ++ '<' :: '/' :: (closing ++ ['>'])))))
      {innerStart innerStop : Nat} (innerStartEq : innerStart = span.start + Text.bytes opening + 2)
      (innerStopEq : innerStop = innerStart + Text.bytes inner) :
      Delimit source span ⟨⟨span.start, innerStart⟩, some ⟨innerStop, span.stop⟩⟩
  | single {inside : Text} (delimits : span.Delimits source ('<' :: (inside ++ ['/', '>']))) :
      Delimit source span ⟨span, none⟩

namespace NodeKind

/-- Whether a node may stand between two tags. -/
def isContent : NodeKind → Bool
  | element _ => true
  | fragment _ => true
  | text _ => true
  | container => true
  | _ => false

/-- Whether a node may be the root of markup that is no content of other markup. -/
def isContext : NodeKind → Bool
  | container => true
  | other _ => true
  | _ => false

theorem isTagged_of_tags? {kind : NodeKind} {tags : Tags}
    (tagsEq : kind.tags? = some tags) : kind.isTagged = true := by
  rw [← isSome_tags?, tagsEq]
  rfl

end NodeKind

namespace Outline

/-- Whether outlines follow one another without a gap from one offset to another. -/
def Tiled : Nat → List Outline → Nat → Prop
  | start, [], stop => start = stop
  | start, first :: rest, stop => first.span.start = start ∧ Tiled first.span.stop rest stop

/-- Whether two neighbours are not both text. -/
def Apart (left right : Outline) : Prop :=
  left.kind.text?.isNone = true ∨ right.kind.text?.isNone = true

/-- Whether an outline may be what stands in a pair of braces. -/
def IsExpression (outline : Outline) : Prop :=
  outline.kind.isTagged = true ∨ outline.children = [] ∧
    (outline.kind = .empty ∨ ∃ construct, outline.kind = .other construct)

/-- Whether an outline is a root around one element or fragment. -/
def IsRoot (outline : Outline) : Prop :=
  ∃ kind span found, outline = node kind span [] [found] ∧ kind.isContext = true
    ∧ found.kind.isTagged = true ∧ found.span.Within span

/-- Outlines whose spans are true of a source. -/
inductive Placed (source : Text) : Outline → Prop where
  | text {span : Span} {raw : Text} (delimits : span.Delimits source raw) (visible : raw ≠ []) :
      Placed source (node (.text raw) span [] [])
  | empty {span : Span} {inside : Text} (delimits : span.Delimits source inside) :
      Placed source (node .empty span [] [])
  | other {construct : Construct} {span : Span} {piece : Text} {aside : List Outline}
      (delimits : span.Delimits source piece) (roots : ∀ root ∈ aside, IsRoot root)
      (placed : ∀ root ∈ aside, Placed source root) :
      Placed source (node (.other construct) span aside [])
  | container {span : Span} {piece : Text} {expression : Outline}
      (delimits : span.Delimits source piece) (braced : piece.Braced)
      (isExpression : IsExpression expression)
      (within : span.start + 1 ≤ expression.span.start ∧ expression.span.stop + 1 ≤ span.stop)
      (placed : Placed source expression) :
      Placed source (node .container span [] [expression])
  | tagged {kind : NodeKind} {span : Span} {tags : Tags} {aside children : List Outline}
      (tagsEq : kind.tags? = some tags) (delimit : tags.Delimit source span)
      (roots : ∀ root ∈ aside, IsRoot root) (asidePlaced : ∀ root ∈ aside, Placed source root)
      (tiled : Tiled tags.inner.start children tags.inner.stop)
      (apart : children.IsChain Apart)
      (content : ∀ child ∈ children, child.kind.isContent = true)
      (placed : ∀ child ∈ children, Placed source child) :
      Placed source (node kind span aside children)
  | root {kind : NodeKind} {span : Span} {piece : Text} {found : Outline}
      (context : kind.isContext = true) (delimits : span.Delimits source piece)
      (braced : kind = .container → piece.Braced)
      (tagged : found.kind.isTagged = true) (within : found.span.Within span)
      (placed : Placed source found) :
      Placed source (node kind span [] [found])

/-! Stretches of outlines -/

/-- Stretches of outlines that meet make up one stretch. -/
theorem Tiled.append {start middle stop : Nat} {left right : List Outline}
    (first : Tiled start left middle) (second : Tiled middle right stop) :
    Tiled start (left ++ right) stop := by
  induction left generalizing start with
  | nil =>
    have same : start = middle := first
    rw [same]
    exact second
  | cons head rest inductionHypothesis => exact ⟨first.1, inductionHypothesis first.2⟩

theorem Tiled.cons {outline : Outline} {rest : List Outline} {stop : Nat}
    (tail : Tiled outline.span.stop rest stop) : Tiled outline.span.start (outline :: rest) stop :=
  ⟨rfl, tail⟩

variable {source : Text}

/-- What becomes of a stretch of text: a single text node, or nothing if the text is empty. -/
theorem placed_ofText {start stop : Nat} (first : Text.isBoundary source start = true)
    (last : Text.isBoundary source stop = true) (ordered : start ≤ stop) :
    Tiled start (ofText source start stop) stop
      ∧ ∀ child ∈ ofText source start stop, child.kind.isContent = true ∧ Placed source child := by
  unfold ofText
  split
  case isTrue visible =>
    obtain ⟨raw, delimits⟩ := Text.exists_slice?_of_le first last ordered
    have same : textAt source ⟨start, stop⟩ = raw := by
      unfold textAt
      rw [delimits]
      rfl
    have size : stop = start + Text.bytes raw := Text.stop_of_slice? delimits
    refine ⟨⟨rfl, rfl⟩, ?_⟩
    intro child member
    rw [List.mem_singleton.1 member, same]
    refine ⟨rfl, .text delimits ?_⟩
    rintro rfl
    simp only [Text.bytes_nil] at size
    omega
  case isFalse empty => exact ⟨Nat.le_antisymm ordered (Nat.not_lt.1 empty), by simp⟩

theorem isChain_ofText_append {start stop : Nat} {next : Outline} {rest : List Outline}
    (other : next.kind.text?.isNone = true) (apart : rest.IsChain Apart) :
    (ofText source start stop ++ next :: rest).IsChain Apart := by
  have tail : (next :: rest).IsChain Apart :=
    List.isChain_cons.2 ⟨fun _ _ => Or.inl other, apart⟩
  unfold ofText
  split
  · refine List.isChain_cons.2 ⟨?_, tail⟩
    rintro neighbour ⟨⟩
    exact Or.inr other
  · exact tail

theorem isChain_ofText (start stop : Nat) : (ofText source start stop).IsChain Apart := by
  unfold ofText
  split
  · exact .singleton _
  · exact .nil

/-! Roots -/

/-- Whether outlines are roots that stand where they say. -/
def Rooted (source : Text) (outlines : List Outline) : Prop :=
  ∀ root ∈ outlines, IsRoot root ∧ Placed source root

theorem Rooted.nil : Rooted source [] := by
  intro root member
  cases member

theorem Rooted.append {left right : List Outline} (first : Rooted source left)
    (second : Rooted source right) : Rooted source (left ++ right) := by
  intro root member
  rcases List.mem_append.1 member with inLeft | inRight
  · exact first root inLeft
  · exact second root inRight

/-- Whether a context can be the root of what is found between two offsets. -/
structure Encloses (source : Text) (context : Context) (start stop : Nat) : Prop where
  isContext : context.1.isContext = true
  delimits : ∃ piece, context.2.Delimits source piece ∧ (context.1 = .container → piece.Braced)
  first : context.2.start ≤ start
  last : stop ≤ context.2.stop

theorem Encloses.mono {context : Context} {start start' stop stop' : Nat}
    (encloses : Encloses source context start stop) (later : start ≤ start')
    (earlier : stop' ≤ stop) :
    Encloses source context start' stop' :=
  ⟨encloses.isContext, encloses.delimits, Nat.le_trans encloses.first later,
    Nat.le_trans earlier encloses.last⟩

theorem rooted_under {context : Context} {start stop : Nat} {found : Outline}
    (encloses : Encloses source context start stop) (tagged : found.kind.isTagged = true)
    (first : start ≤ found.span.start) (last : found.span.stop ≤ stop)
    (placed : Placed source found) : Rooted source [under context found] := by
  intro root member
  rw [List.mem_singleton.1 member]
  obtain ⟨piece, delimits, braced⟩ := encloses.delimits
  have within : found.span.Within context.2 :=
    ⟨Nat.le_trans encloses.first first, Nat.le_trans last encloses.last⟩
  exact ⟨⟨_, _, _, rfl, encloses.isContext, tagged, within⟩,
    .root encloses.isContext delimits braced tagged within placed⟩

/-! Children -/

/-- Whether outlines are what stands between two tags: they tile the place, texts are kept apart,
and each of them is placed. -/
structure Fills (source : Text) (start : Nat) (children : List Outline) (stop : Nat) : Prop where
  tiled : Tiled start children stop
  apart : children.IsChain Apart
  placed : ∀ child ∈ children, child.kind.isContent = true ∧ Placed source child

theorem fills_ofText {start stop : Nat} (first : Text.isBoundary source start = true)
    (last : Text.isBoundary source stop = true) (ordered : start ≤ stop) :
    Fills source start (ofText source start stop) stop :=
  ⟨(placed_ofText first last ordered).1, isChain_ofText start stop,
    (placed_ofText first last ordered).2⟩

/-- A text, something that is no text, and what fills the rest, together fill their place. -/
theorem Fills.step {start stop : Nat} {next : Outline} {rest : List Outline}
    (first : Text.isBoundary source start = true)
    (last : Text.isBoundary source next.span.start = true) (ordered : start ≤ next.span.start)
    (isContent : next.kind.isContent = true) (other : next.kind.text?.isNone = true)
    (placed : Placed source next) (fills : Fills source next.span.stop rest stop) :
    Fills source start (ofText source start next.span.start ++ next :: rest) stop := by
  have text := placed_ofText first last ordered
  refine ⟨text.1.append fills.tiled.cons, isChain_ofText_append other fills.apart, ?_⟩
  intro child member
  rcases List.mem_append.1 member with inText | inRest
  · exact text.2 child inText
  · rcases List.mem_cons.1 inRest with rfl | inRest
    · exact ⟨isContent, placed⟩
    · exact fills.placed child inRest

theorem isContent_of_isTagged {outline : Outline} (tagged : outline.kind.isTagged = true) :
    outline.kind.isContent = true := by
  cases outline with
  | node kind span aside children => cases kind <;> first | rfl | cases tagged

theorem text?_of_isTagged {outline : Outline} (tagged : outline.kind.isTagged = true) :
    outline.kind.text?.isNone = true := by
  cases outline with
  | node kind span aside children => cases kind <;> first | rfl | cases tagged

end Outline

end FragmentLint
