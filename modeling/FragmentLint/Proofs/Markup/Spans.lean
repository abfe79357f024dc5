import FragmentLint.Proofs.Text.Slice
import FragmentLint.Span

/-!
Contract: spans that are true of a source, and spans one after the other.

A span is sound in a source if the source can be cut at its two ends, the first of which does not
lie behind the second: then it delimits a piece (`sound_iff_delimits`). Spans in order keep apart,
each within the same bounds; spans that tile a place leave nothing of it out.
-/

namespace FragmentLint.Span

/-- Whether a span lies within another one. -/
def Within (inner outer : Span) : Prop := outer.start ≤ inner.start ∧ inner.stop ≤ outer.stop

/-- The text between the ends of a span of a source. -/
def Delimits (span : Span) (source piece : Text) : Prop :=
  Text.slice? source span.start span.stop = some piece

theorem Delimits.stop_eq {span : Span} {source piece : Text}
    (delimits : span.Delimits source piece) : span.stop = span.start + Text.bytes piece :=
  Text.stop_of_slice? delimits

theorem Delimits.unique {span : Span} {source piece piece' : Text}
    (first : span.Delimits source piece) (second : span.Delimits source piece') :
    piece = piece' := by
  unfold Delimits at first second
  rw [first] at second
  exact Option.some.inj second

/-- Whether a source can be cut at both ends of a span, one not behind the other. -/
structure Sound (source : Text) (span : Span) : Prop where
  ordered : span.start ≤ span.stop
  inside : span.stop ≤ Text.bytes source
  first : Text.isBoundary source span.start = true
  last : Text.isBoundary source span.stop = true

variable {source : Text} {span : Span}

theorem Delimits.sound {piece : Text} (delimits : span.Delimits source piece) :
    span.Sound source := by
  have last := Text.isBoundary_stop delimits
  refine ⟨?_, Text.le_bytes_of_isBoundary last, Text.isBoundary_start delimits, last⟩
  rw [delimits.stop_eq]
  exact Nat.le_add_right _ _

/-- The sound spans are those that delimit a piece of the source. -/
theorem sound_iff_delimits : span.Sound source ↔ ∃ piece, span.Delimits source piece := by
  constructor
  · intro sound
    exact Text.exists_slice?_of_le sound.first sound.last sound.ordered
  · rintro ⟨piece, delimits⟩
    exact delimits.sound

theorem Delimits.start_lt_stop {piece : Text} (delimits : span.Delimits source piece)
    (visible : piece ≠ []) : span.start < span.stop := by
  have size : Text.bytes piece ≠ 0 := fun none => visible ((Text.bytes_eq_zero_iff piece).1 none)
  rw [delimits.stop_eq]
  omega

/-! ## Spans that tile a place -/

/-- Whether spans follow one another from one offset to another without a gap, and none of them is
empty. -/
def Tile : Nat → List Span → Nat → Prop
  | start, [], stop => start = stop
  | start, first :: rest, stop =>
    first.start = start ∧ first.start < first.stop ∧ Tile first.stop rest stop

theorem Tile.start_le_stop {spans : List Span} {start stop : Nat} (tile : Tile start spans stop) :
    start ≤ stop := by
  induction spans generalizing start with
  | nil => exact Nat.le_of_eq tile
  | cons first rest inductionHypothesis =>
    obtain ⟨rfl, positive, others⟩ := tile
    exact Nat.le_trans (Nat.le_of_lt positive) (inductionHypothesis others)

/-- There is nothing in a place if and only if no spans tile it. -/
theorem Tile.eq_nil_iff {spans : List Span} {start stop : Nat} (tile : Tile start spans stop) :
    spans = [] ↔ start = stop := by
  cases spans with
  | nil => exact iff_of_true rfl tile
  | cons first rest =>
    obtain ⟨rfl, positive, others⟩ := tile
    have behind := others.start_le_stop
    exact iff_of_false (List.cons_ne_nil first rest) (by omega)

/-! ## Spans in order -/

/-- Whether spans stand one behind the other between two offsets. -/
def InOrder : Nat → List Span → Nat → Prop
  | start, [], stop => start ≤ stop
  | start, first :: rest, stop =>
    start ≤ first.start ∧ first.start ≤ first.stop ∧ InOrder first.stop rest stop

theorem InOrder.start_le_stop {spans : List Span} {start stop : Nat}
    (inOrder : InOrder start spans stop) : start ≤ stop := by
  induction spans generalizing start with
  | nil => exact inOrder
  | cons first rest inductionHypothesis =>
    obtain ⟨behind, ordered, others⟩ := inOrder
    exact Nat.le_trans behind (Nat.le_trans ordered (inductionHypothesis others))

theorem InOrder.mono {spans : List Span} {start start' stop stop' : Nat}
    (inOrder : InOrder start spans stop) (earlier : start' ≤ start) (later : stop ≤ stop') :
    InOrder start' spans stop' := by
  induction spans generalizing start start' with
  | nil => exact Nat.le_trans earlier (Nat.le_trans inOrder later)
  | cons first rest inductionHypothesis =>
    obtain ⟨behind, ordered, others⟩ := inOrder
    exact ⟨Nat.le_trans earlier behind, ordered, inductionHypothesis others (Nat.le_refl _)⟩

/-- Spans in order behind spans in order are in order. -/
theorem InOrder.append {left right : List Span} {start middle stop : Nat}
    (first : InOrder start left middle) (second : InOrder middle right stop) :
    InOrder start (left ++ right) stop := by
  induction left generalizing start with
  | nil => exact second.mono first (Nat.le_refl _)
  | cons head rest inductionHypothesis =>
    obtain ⟨behind, ordered, others⟩ := first
    exact ⟨behind, ordered, inductionHypothesis others⟩

theorem InOrder.front {left : List Span} {last : Span} {start stop : Nat}
    (inOrder : InOrder start (left ++ [last]) stop) : InOrder start left last.start := by
  induction left generalizing start with
  | nil => exact inOrder.1
  | cons head rest inductionHypothesis =>
    obtain ⟨behind, ordered, others⟩ := inOrder
    exact ⟨behind, ordered, inductionHypothesis others⟩

theorem InOrder.within {spans : List Span} {start stop : Nat} (inOrder : InOrder start spans stop) :
    ∀ span ∈ spans, start ≤ span.start ∧ span.stop ≤ stop := by
  induction spans generalizing start with
  | nil =>
    intro span member
    cases member
  | cons first rest inductionHypothesis =>
    obtain ⟨behind, ordered, others⟩ := inOrder
    intro span member
    rcases List.mem_cons.1 member with rfl | inRest
    · exact ⟨behind, others.start_le_stop⟩
    · obtain ⟨behindFirst, inside⟩ := inductionHypothesis others span inRest
      exact ⟨by omega, inside⟩

/-- Spans in order are so within any bounds that each of them keeps to. -/
theorem InOrder.narrow {spans : List Span} {start start' stop stop' : Nat}
    (inOrder : InOrder start spans stop) (ordered : start' ≤ stop')
    (within : ∀ span ∈ spans, start' ≤ span.start ∧ span.stop ≤ stop') :
    InOrder start' spans stop' := by
  induction spans generalizing start start' with
  | nil => exact ordered
  | cons first rest inductionHypothesis =>
    obtain ⟨-, size, others⟩ := inOrder
    obtain ⟨begins, ends⟩ := within first List.mem_cons_self
    refine ⟨begins, size, inductionHypothesis others ends fun span member => ?_⟩
    exact ⟨(others.within span member).1, (within span (List.mem_cons_of_mem _ member)).2⟩

/-- What is left when some of several spans in order are left out is in order. -/
theorem InOrder.sublist {spans spans' : List Span} {start stop : Nat}
    (inOrder : InOrder start spans stop) (sublist : spans'.Sublist spans) :
    InOrder start spans' stop := by
  induction sublist generalizing start with
  | slnil => exact inOrder
  | cons _ _ inductionHypothesis =>
    obtain ⟨behind, ordered, others⟩ := inOrder
    exact (inductionHypothesis others).mono (Nat.le_trans behind ordered) (Nat.le_refl _)
  | cons_cons _ _ inductionHypothesis =>
    obtain ⟨behind, ordered, others⟩ := inOrder
    exact ⟨behind, ordered, inductionHypothesis others⟩

/-- Spans that tile a place stand in it in order. -/
theorem Tile.inOrder {spans : List Span} {start stop : Nat} (tile : Tile start spans stop) :
    InOrder start spans stop := by
  induction spans generalizing start with
  | nil => exact Nat.le_of_eq tile
  | cons first rest inductionHypothesis =>
    obtain ⟨rfl, positive, others⟩ := tile
    exact ⟨Nat.le_refl _, Nat.le_of_lt positive, inductionHypothesis others⟩

end FragmentLint.Span
