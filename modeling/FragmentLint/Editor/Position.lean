import FragmentLint.Span
import FragmentLint.Text

/-!
Contract: positions in a text by line and column, as editors count them.

Lines end after their line feed. Columns count UTF-16 units, of which a character above the first
plane takes two. Main statements: a position comes from the text in front of it (`Position.after`),
and every position leads to an offset between two characters (`offsetIn_isBoundary`).
-/

namespace FragmentLint

/-- A line and a column, both from zero. -/
structure Position where
  line : Nat
  character : Nat
deriving DecidableEq, Repr, Inhabited

/-- A range between two positions. -/
structure Range where
  start : Position
  stop : Position
deriving DecidableEq, Repr, Inhabited

namespace Text

def unitsOf (c : Char) : Nat := if c.toNat < 0x10000 then 1 else 2

def units : Text → Nat
  | [] => 0
  | c :: rest => unitsOf c + units rest

/-- The offset of a column in the line that a text begins with. A column inside a character leads
behind it, and a column past the end leads to the end of the line, in front of its line feed. -/
def columnOffset : Text → (character : Nat) → Nat
  | [], _ => 0
  | c :: rest, character =>
    if character == 0 || c == '\n' then 0
    else c.utf8Size + columnOffset rest (character - unitsOf c)

/-- The offset of a column in a line of a text, or its end if there is no such line. -/
def lineOffset : Text → (line character : Nat) → Nat
  | text, 0, character => columnOffset text character
  | [], _ + 1, _ => 0
  | c :: rest, line + 1, character =>
    c.utf8Size + lineOffset rest (if c == '\n' then line else line + 1) character

end Text

namespace Position

def origin : Position := ⟨0, 0⟩

def advance (position : Position) (c : Char) : Position :=
  if c == '\n' then ⟨position.line + 1, 0⟩
  else ⟨position.line, position.character + Text.unitsOf c⟩

/-- The position behind a text that begins at the first position. -/
def after (text : Text) : Position := text.foldl advance origin

/-- The position of a byte offset of a text, or of its end if the offset lies behind it; `none`
inside a character. -/
def ofOffset? (text : Text) (offset : Nat) : Option Position :=
  (Text.cut? text (min offset (Text.bytes text))).map fun (before, _) => after before

def offsetIn (position : Position) (text : Text) : Nat :=
  Text.lineOffset text position.line position.character

end Position

namespace Range

/-- The range of a span of a text; `none` if an end lies inside a character. -/
def ofSpan? (text : Text) (span : Span) : Option Range := do
  let start ← Position.ofOffset? text span.start
  let stop ← Position.ofOffset? text span.stop
  return ⟨start, stop⟩

def spanIn (range : Range) (text : Text) : Span :=
  ⟨range.start.offsetIn text, range.stop.offsetIn text⟩

end Range

namespace Text

/-- The offset of a column is that of the end of some characters. -/
theorem columnOffset_eq_bytes (text : Text) (character : Nat) :
    ∃ before after, text = before ++ after ∧ columnOffset text character = bytes before := by
  induction text generalizing character with
  | nil => exact ⟨[], [], rfl, rfl⟩
  | cons c rest inductionHypothesis =>
    unfold columnOffset
    split
    · exact ⟨[], c :: rest, rfl, rfl⟩
    · obtain ⟨before, after, whole, size⟩ := inductionHypothesis (character - unitsOf c)
      exact ⟨c :: before, after, by simp [whole], by simp [size]⟩

/-- The offset of a position is that of the end of some characters. -/
theorem lineOffset_eq_bytes (text : Text) (line character : Nat) :
    ∃ before after, text = before ++ after ∧ lineOffset text line character = bytes before := by
  induction text generalizing line with
  | nil =>
    cases line with
    | zero => exact columnOffset_eq_bytes [] character
    | succ line => exact ⟨[], [], rfl, rfl⟩
  | cons c rest inductionHypothesis =>
    cases line with
    | zero => exact columnOffset_eq_bytes (c :: rest) character
    | succ line =>
      obtain ⟨before, after, whole, size⟩ :=
        inductionHypothesis (if c == '\n' then line else line + 1)
      exact ⟨c :: before, after, by simp [whole], congrArg (c.utf8Size + ·) size⟩

end Text

namespace Position

/-- Every position leads to an offset between two characters. -/
theorem offsetIn_isBoundary (position : Position) (text : Text) :
    Text.isBoundary text (position.offsetIn text) = true := by
  obtain ⟨before, after, whole, size⟩ :=
    Text.lineOffset_eq_bytes text position.line position.character
  rw [offsetIn, Text.isBoundary, size, whole, Text.cut?_bytes_append]
  rfl

end Position

end FragmentLint
