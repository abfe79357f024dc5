import FragmentLint.Editor.Document
import FragmentLint.Proofs.Editor.Position
import FragmentLint.Proofs.Text.Boundary

/-!
Contract: offsets and their positions.

Positions are ordered as the places that they name: by line, and within a line by column. Every
character leads on to a later position, so of two boundaries the one in front has the earlier position.
Main statement: the position of a boundary leads back to it, and only offsets inside characters have
none (`Document.positionOf?_round_trip`).

Does not own: positions that are those of no boundary.
-/

namespace FragmentLint

namespace Text

/-- A character of one byte is one unit, and none is more than two. -/
theorem unitsOf_le_utf8Size (c : Char) : unitsOf c ≤ c.utf8Size := by
  have wide := c.utf8Size_pos
  unfold unitsOf
  split
  next => exact wide
  next astral =>
    have several : c.utf8Size ≠ 1 := by
      intro one
      have ascii := UInt32.le_iff_toNat_le.1 (Char.utf8Size_eq_one_iff.1 one)
      have small : c.toNat ≤ 127 := ascii
      omega
    omega

end Text

namespace Position

/-- Editors count lines and columns in 32 bits: their numbers stay below this one. -/
def limit : Nat := 4294967296

instance : LT Position where
  lt first second :=
    first.line < second.line ∨ first.line = second.line ∧ first.character < second.character

instance : LE Position where
  le first second :=
    first.line < second.line ∨ first.line = second.line ∧ first.character ≤ second.character

/-- One position lies in front of another one if its line does, or if they share the line and its column
does. -/
theorem lt_iff {first second : Position} : first < second ↔ first.line < second.line
    ∨ first.line = second.line ∧ first.character < second.character :=
  Iff.rfl

theorem le_iff {first second : Position} : first ≤ second ↔ first.line < second.line
    ∨ first.line = second.line ∧ first.character ≤ second.character :=
  Iff.rfl

instance (first second : Position) : Decidable (first < second) :=
  decidable_of_iff' _ lt_iff

instance (first second : Position) : Decidable (first ≤ second) :=
  decidable_of_iff' _ le_iff

theorem lt_advance (position : Position) (c : Char) : position < position.advance c := by
  rw [lt_iff]
  by_cases newline : c = '\n'
  · subst newline
    exact Or.inl (Nat.lt_succ_self position.line)
  · rw [advance_of_ne newline]
    exact Or.inr ⟨rfl, Nat.lt_add_of_pos_right (Text.unitsOf_pos c)⟩

/-- Text leads on, whatever it consists of. -/
theorem le_foldl_advance (position : Position) (text : Text) :
    position ≤ text.foldl advance position := by
  induction text generalizing position with
  | nil => exact Or.inr ⟨rfl, Nat.le_refl _⟩
  | cons c rest inductionHypothesis =>
    have onward := inductionHypothesis (position.advance c)
    have step := position.lt_advance c
    rw [List.foldl_cons]
    rw [le_iff] at onward ⊢
    rw [lt_iff] at step
    omega

theorem lt_foldl_advance (position : Position) {text : Text} (some : text ≠ []) :
    position < text.foldl advance position := by
  cases text with
  | nil => exact absurd rfl some
  | cons c rest =>
    have onward := le_foldl_advance (position.advance c) rest
    have step := position.lt_advance c
    rw [List.foldl_cons]
    rw [le_iff] at onward
    rw [lt_iff] at step ⊢
    omega

theorem after_append (front rest : Text) : after (front ++ rest) = rest.foldl advance (after front) :=
  List.foldl_append

/-- Lines and columns are no more than bytes. -/
theorem foldl_advance_le_bytes (position : Position) (text : Text) :
    (text.foldl advance position).line + (text.foldl advance position).character
      ≤ position.line + position.character + Text.bytes text := by
  induction text generalizing position with
  | nil => exact Nat.le_refl _
  | cons c rest inductionHypothesis =>
    have onward := inductionHypothesis (position.advance c)
    have narrow := Text.unitsOf_le_utf8Size c
    have wide := c.utf8Size_pos
    rw [List.foldl_cons, Text.bytes_cons]
    by_cases newline : c = '\n'
    · subst newline
      rw [advance_newline] at onward ⊢
      simp only at onward
      omega
    · rw [advance_of_ne newline] at onward ⊢
      simp only at onward
      omega

theorem after_le_bytes (text : Text) :
    (after text).line ≤ Text.bytes text ∧ (after text).character ≤ Text.bytes text := by
  have few := foldl_advance_le_bytes origin text
  rw [show origin.line + origin.character = 0 from rfl, Nat.zero_add] at few
  exact ⟨Nat.le_trans (Nat.le_add_right _ _) few, Nat.le_trans (Nat.le_add_left _ _) few⟩

theorem ofOffset?_bytes (front rest : Text) :
    ofOffset? (front ++ rest) (Text.bytes front) = some (after front) := by
  have within : Text.bytes front ≤ Text.bytes (front ++ rest) := by
    rw [Text.bytes_append]
    exact Nat.le_add_right _ _
  rw [ofOffset?, Nat.min_eq_left within, Text.cut?_bytes_append]
  rfl

/-- The position of a boundary is the one behind the text in front of it. -/
theorem ofOffset?_of_isBoundary {text : Text} {offset : Nat}
    (boundary : Text.isBoundary text offset = true) :
    ∃ front rest, text = front ++ rest ∧ offset = Text.bytes front
      ∧ ofOffset? text offset = some (after front) := by
  obtain ⟨front, rest, rfl, rfl⟩ := Text.isBoundary_iff.1 boundary
  exact ⟨front, rest, rfl, rfl, ofOffset?_bytes front rest⟩

/-- A boundary has a position, which leads back to it. -/
theorem exists_ofOffset? {text : Text} {offset : Nat}
    (boundary : Text.isBoundary text offset = true) :
    ∃ position, ofOffset? text offset = some position ∧ position.offsetIn text = offset := by
  obtain ⟨front, rest, rfl, rfl, place⟩ := ofOffset?_of_isBoundary boundary
  exact ⟨after front, place, offsetIn_after front rest⟩

/-- The line and the column of an offset are no more than the text has bytes. -/
theorem le_of_ofOffset? {text : Text} {offset : Nat} {position : Position}
    (place : ofOffset? text offset = some position) :
    position.line ≤ Text.bytes text ∧ position.character ≤ Text.bytes text := by
  obtain ⟨⟨front, rest⟩, cut, rfl⟩ := Option.map_eq_some_iff.1 place
  obtain ⟨fewLines, fewColumns⟩ := after_le_bytes front
  have within : Text.bytes front ≤ Text.bytes text := by
    rw [Text.bytes_of_cut? cut]
    exact Nat.min_le_right _ _
  exact ⟨Nat.le_trans fewLines within, Nat.le_trans fewColumns within⟩

/-- An offset has no position if and only if it lies inside a character. -/
theorem ofOffset?_eq_none_iff {text : Text} {offset : Nat} :
    ofOffset? text offset = none ↔ offset < Text.bytes text ∧ Text.Misses text offset := by
  have cut : ofOffset? text offset = none
      ↔ Text.isBoundary text (min offset (Text.bytes text)) = false := by
    rw [ofOffset?, Option.map_eq_none_iff, Text.isBoundary, Option.isSome_eq_false_iff,
      Option.isNone_iff_eq_none]
  rw [cut]
  rcases Nat.lt_or_ge offset (Text.bytes text) with within | past
  · rw [Nat.min_eq_left (Nat.le_of_lt within), Text.isBoundary_eq_false_iff]
    exact (and_iff_right within).symm
  · have whole : Text.isBoundary text (Text.bytes text) = true :=
      Text.isBoundary_iff.2 ⟨text, [], List.append_nil text, rfl⟩
    rw [Nat.min_eq_right past, whole]
    simp [Nat.not_lt.2 past]

/-- Of two boundaries the one in front has the earlier position. -/
theorem lt_of_ofOffset? {text : Text} {first second : Nat} {position later : Position}
    (firstBoundary : Text.isBoundary text first = true)
    (secondBoundary : Text.isBoundary text second = true)
    (firstPlace : ofOffset? text first = some position)
    (secondPlace : ofOffset? text second = some later) (inFront : first < second) :
    position < later := by
  obtain ⟨front, rest, rfl, rfl⟩ := Text.isBoundary_iff.1 firstBoundary
  obtain ⟨kept, back, rfl, rfl⟩ :=
    Text.exists_append_of_isBoundary secondBoundary (Nat.le_of_lt inFront)
  have occupied : kept ≠ [] := by
    rintro rfl
    exact absurd inFront (Nat.lt_irrefl _)
  rw [ofOffset?_bytes] at firstPlace
  rw [← List.append_assoc, ← Text.bytes_append, ofOffset?_bytes, after_append] at secondPlace
  rw [← Option.some.inj firstPlace, ← Option.some.inj secondPlace]
  exact lt_foldl_advance _ occupied

end Position

/-- A span between boundaries has a range, which leads back to it. -/
theorem Range.ofSpan?_of_isBoundary {text : Text} {span : Span}
    (begins : Text.isBoundary text span.start = true)
    (ends : Text.isBoundary text span.stop = true) :
    ∃ range, ofSpan? text span = some range ∧ range.spanIn text = span := by
  obtain ⟨start, startPlace, startBack⟩ := Position.exists_ofOffset? begins
  obtain ⟨stop, stopPlace, stopBack⟩ := Position.exists_ofOffset? ends
  refine ⟨⟨start, stop⟩, ?_, ?_⟩
  · rw [ofSpan?, startPlace, stopPlace]
    rfl
  · rw [spanIn, startBack, stopBack]

namespace Document

/-- Offsets and positions of a document whose lines and columns can be counted in 32 bits. A boundary
has a position, which leads back to it, and of two boundaries the one in front has the earlier position.
An offset behind the end has the position of the end; one inside a character has none, and there is no
other without one. So a span between boundaries has a range, which leads back to it. -/
theorem positionOf?_round_trip (document : Document)
    (small : Text.bytes document.text < Position.limit) :
    (∀ offset, Text.isBoundary document.text offset = true →
        ∃ position, document.positionOf? offset = some position
          ∧ document.offsetOf position = offset
          ∧ position.line < Position.limit ∧ position.character < Position.limit)
      ∧ (∀ first second position later, Text.isBoundary document.text first = true →
          Text.isBoundary document.text second = true →
          document.positionOf? first = some position → document.positionOf? second = some later →
          first < second → position < later)
      ∧ (∀ offset, Text.bytes document.text ≤ offset →
          document.positionOf? offset = document.positionOf? (Text.bytes document.text))
      ∧ (∀ offset, document.positionOf? offset = none
          ↔ offset < Text.bytes document.text ∧ Text.Misses document.text offset)
      ∧ ∀ span : Span, Text.isBoundary document.text span.start = true →
          Text.isBoundary document.text span.stop = true →
          ∃ range, document.rangeOf? span = some range ∧ document.spanOf range = span := by
  refine ⟨?_, ?_, ?_, ?_, ?_⟩
  · intro offset boundary
    obtain ⟨position, place, back⟩ := Position.exists_ofOffset? boundary
    obtain ⟨fewLines, fewColumns⟩ := Position.le_of_ofOffset? place
    exact ⟨position, place, back, Nat.lt_of_le_of_lt fewLines small,
      Nat.lt_of_le_of_lt fewColumns small⟩
  · intro first second position later firstBoundary secondBoundary
    exact Position.lt_of_ofOffset? firstBoundary secondBoundary
  · intro offset past
    unfold positionOf? Position.ofOffset?
    rw [Nat.min_eq_right past, Nat.min_self]
  · intro offset
    exact Position.ofOffset?_eq_none_iff
  · intro span begins ends
    exact Range.ofSpan?_of_isBoundary begins ends

/-- A document with an empty line and a character that takes two columns. -/
def threeLines : Document := unchecked default "é\n\n😀x".toList 1 .javascript

/-- The last line has three columns, and there is no position inside its first character. -/
theorem positionOf?_round_trip_astral :
    Text.bytes threeLines.text < Position.limit
      ∧ Text.isBoundary threeLines.text 4 = true ∧ Text.isBoundary threeLines.text 8 = true
      ∧ threeLines.positionOf? 8 = some ⟨2, 2⟩ ∧ threeLines.offsetOf ⟨2, 2⟩ = 8
      ∧ threeLines.positionOf? 4 = some ⟨2, 0⟩ ∧ (⟨2, 0⟩ : Position) < ⟨2, 2⟩
      ∧ threeLines.positionOf? 20 = some ⟨2, 3⟩
      ∧ threeLines.positionOf? 6 = none ∧ 6 < Text.bytes threeLines.text
      ∧ Text.Misses threeLines.text 6
      ∧ threeLines.rangeOf? ⟨2, 8⟩ = some ⟨⟨0, 1⟩, ⟨2, 2⟩⟩
      ∧ threeLines.spanOf ⟨⟨0, 1⟩, ⟨2, 2⟩⟩ = ⟨2, 8⟩ := by
  have small : Text.bytes threeLines.text < Position.limit := by decide
  have begins : Text.isBoundary threeLines.text 4 = true := by decide
  have ends : Text.isBoundary threeLines.text 8 = true := by decide
  have early : threeLines.positionOf? 4 = some ⟨2, 0⟩ := by decide
  have late : threeLines.positionOf? 8 = some ⟨2, 2⟩ := by decide
  have atEnd : threeLines.positionOf? 9 = some ⟨2, 3⟩ := by decide
  have inside : threeLines.positionOf? 6 = none := by decide
  have shown : threeLines.rangeOf? ⟨2, 8⟩ = some ⟨⟨0, 1⟩, ⟨2, 2⟩⟩ := by decide
  obtain ⟨there, inOrder, past, nowhere, spans⟩ := positionOf?_round_trip threeLines small
  obtain ⟨position, place, back, -, -⟩ := there 8 ends
  obtain rfl := Option.some.inj (late.symm.trans place)
  obtain ⟨within, misses⟩ := (nowhere 6).1 inside
  obtain ⟨range, rangeEq, again⟩ := spans ⟨2, 8⟩ (by decide) ends
  obtain rfl := Option.some.inj (shown.symm.trans rangeEq)
  exact ⟨small, begins, ends, late, back, early, inOrder 4 8 _ _ begins ends early late (by decide),
    (past 20 (by decide)).trans atEnd, inside, within, misses, shown, again⟩

end Document

end FragmentLint
