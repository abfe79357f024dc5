import FragmentLint.Proofs.Editor.RoundTrip
import FragmentLint.Proofs.Text.Lines
import Mathlib.Order.Bounds.Defs

/-!
Contract: where a position leads that comes from outside.

The lines of a text are what stands between its line feeds. A line that there is has a front of so many
lines, and behind it the text ends or goes on with a line feed (`IsLine`); its positions are those of
the boundaries that cut it (`IsLine.position_iff`). Main statement: a position leads to the first place
of its line that is not in front of its column, or to the end of the line; where there is no such line
it leads to the end of the text, and later positions lead no less far (`Document.offsetOf_isLeast`).

Does not own: the way from an offset to its position.
-/

namespace FragmentLint

namespace Text

/-! ## Later positions lead farther -/

theorem columnOffset_mono (text : Text) {character later : Nat} (ordered : character ≤ later) :
    columnOffset text character ≤ columnOffset text later := by
  induction text generalizing character later with
  | nil => exact Nat.le_refl _
  | cons c rest inductionHypothesis =>
    by_cases stops : character = 0 ∨ c = '\n'
    · rw [columnOffset, if_pos (by simpa using stops)]
      exact Nat.zero_le _
    · obtain ⟨behind, inLine⟩ := not_or.1 stops
      rw [columnOffset_cons behind inLine, columnOffset_cons (by omega) inLine]
      exact Nat.add_le_add_left (inductionHypothesis (by omega)) _

/-- No column of a line lies behind a later line. -/
theorem columnOffset_le_lineOffset (text : Text) (line character later : Nat) :
    columnOffset text character ≤ lineOffset text (line + 1) later := by
  induction text generalizing character with
  | nil => exact Nat.zero_le _
  | cons c rest inductionHypothesis =>
    by_cases stops : character = 0 ∨ c = '\n'
    · rw [columnOffset, if_pos (by simpa using stops)]
      exact Nat.zero_le _
    · obtain ⟨behind, inLine⟩ := not_or.1 stops
      rw [columnOffset_cons behind inLine, lineOffset, if_neg (by simpa using inLine)]
      exact Nat.add_le_add_left (inductionHypothesis _) _

theorem lineOffset_mono (text : Text) {line character line' character' : Nat}
    (ordered : line < line' ∨ line = line' ∧ character ≤ character') :
    lineOffset text line character ≤ lineOffset text line' character' := by
  induction text generalizing line line' with
  | nil => cases line <;> exact Nat.zero_le _
  | cons c rest inductionHypothesis =>
    match line, line' with
    | 0, 0 =>
      rw [lineOffset_zero, lineOffset_zero]
      exact columnOffset_mono _ (by omega)
    | 0, line' + 1 =>
      rw [lineOffset_zero]
      exact columnOffset_le_lineOffset _ _ _ _
    | line + 1, 0 => omega
    | line + 1, line' + 1 =>
      rw [lineOffset, lineOffset]
      apply Nat.add_le_add_left
      apply inductionHypothesis
      split <;> omega

/-! ## The lines of a text -/

/-- In a text of one line there is nothing on the later lines. -/
theorem lineOffset_of_not_mem {text : Text} (unbroken : '\n' ∉ text) (line character : Nat) :
    lineOffset text (line + 1) character = bytes text := by
  induction text with
  | nil => rfl
  | cons c rest inductionHypothesis =>
    have inLine : '\n' ≠ c := List.ne_of_not_mem_cons unbroken
    have restUnbroken := List.not_mem_of_not_mem_cons unbroken
    rw [lineOffset, if_neg (by simpa using Ne.symm inLine), inductionHypothesis restUnbroken,
      bytes_cons]

/-- Behind the first line the others are counted from the beginning. -/
theorem lineOffset_append_newline {first : Text} (unbroken : '\n' ∉ first) (rest : Text)
    (line character : Nat) :
    lineOffset (first ++ '\n' :: rest) (line + 1) character
      = bytes first + ('\n'.utf8Size + lineOffset rest line character) := by
  induction first with
  | nil =>
    rw [List.nil_append, lineOffset, if_pos (by rfl), bytes_nil, Nat.zero_add]
  | cons c others inductionHypothesis =>
    have inLine : '\n' ≠ c := List.ne_of_not_mem_cons unbroken
    have othersUnbroken := List.not_mem_of_not_mem_cons unbroken
    rw [List.cons_append, lineOffset, if_neg (by simpa using Ne.symm inLine),
      inductionHypothesis othersUnbroken, bytes_cons, Nat.add_assoc]

theorem foldl_advance_of_not_mem {line : Text} (unbroken : '\n' ∉ line) (position : Position) :
    line.foldl Position.advance position = ⟨position.line, position.character + units line⟩ := by
  induction line generalizing position with
  | nil => rfl
  | cons c rest inductionHypothesis =>
    have inLine : '\n' ≠ c := List.ne_of_not_mem_cons unbroken
    have restUnbroken := List.not_mem_of_not_mem_cons unbroken
    rw [List.foldl_cons, Position.advance_of_ne (Ne.symm inLine), inductionHypothesis restUnbroken,
      units, Nat.add_assoc]

/-- Where a line of a text stands: behind as many lines as its number says, and in front of the end of
the text or a line feed. Its columns are counted from its front on. -/
structure IsLine (text : Text) (number : Nat) (front line back : Text) : Prop where
  whole : text = front ++ (line ++ back)
  above : ∀ start, front.foldl Position.advance ⟨start, 0⟩ = ⟨start + number, 0⟩
  unbroken : '\n' ∉ line
  ends : back = [] ∨ ∃ rest, back = '\n' :: rest
  offset : ∀ character,
    lineOffset text number character = bytes front + columnOffset (line ++ back) character

theorem exists_isLine {text line : Text} {number : Nat}
    (isLine : (splitAt '\n' text)[number]? = some line) :
    ∃ front back, IsLine text number front line back := by
  induction number generalizing text with
  | zero =>
    rcases splitAt_cases '\n' text with ⟨unbroken, lines⟩ | ⟨first, rest, rfl, unbroken, lines⟩
    · rw [lines] at isLine
      obtain rfl : text = line := Option.some.inj isLine
      refine ⟨[], [], (List.append_nil text).symm, fun _ => rfl, unbroken, Or.inl rfl, ?_⟩
      intro character
      rw [lineOffset_zero, bytes_nil, Nat.zero_add, List.append_nil]
    · rw [lines] at isLine
      obtain rfl : first = line := Option.some.inj isLine
      refine ⟨[], '\n' :: rest, rfl, fun _ => rfl, unbroken, Or.inr ⟨rest, rfl⟩, ?_⟩
      intro character
      rw [lineOffset_zero, bytes_nil, Nat.zero_add]
  | succ number inductionHypothesis =>
    rcases splitAt_cases '\n' text with ⟨unbroken, lines⟩ | ⟨first, rest, rfl, unbroken, lines⟩
    · rw [lines] at isLine
      cases isLine
    · rw [lines, List.getElem?_cons_succ] at isLine
      obtain ⟨front, back, rest⟩ := inductionHypothesis isLine
      refine ⟨first ++ '\n' :: front, back, ?_, ?_, rest.unbroken, rest.ends, ?_⟩
      · rw [rest.whole, List.append_assoc, List.cons_append]
      · intro start
        rw [List.foldl_append, foldl_advance_of_not_mem unbroken, List.foldl_cons,
          Position.advance_newline, rest.above, Nat.add_assoc, Nat.add_comm 1]
      · intro character
        rw [lineOffset_append_newline unbroken, rest.offset, bytes_append, bytes_cons]
        omega

/-- A position on a line that is not there leads to the end of the text. -/
theorem lineOffset_of_getElem?_eq_none {text : Text} {number : Nat}
    (missing : (splitAt '\n' text)[number]? = none) (character : Nat) :
    lineOffset text number character = bytes text := by
  induction number generalizing text with
  | zero =>
    rcases splitAt_cases '\n' text with ⟨-, lines⟩ | ⟨_, _, -, -, lines⟩
    · rw [lines] at missing
      cases missing
    · rw [lines] at missing
      cases missing
  | succ number inductionHypothesis =>
    rcases splitAt_cases '\n' text with ⟨unbroken, -⟩ | ⟨first, rest, rfl, unbroken, lines⟩
    · exact lineOffset_of_not_mem unbroken number character
    · rw [lines, List.getElem?_cons_succ] at missing
      rw [lineOffset_append_newline unbroken, inductionHypothesis missing, bytes_append, bytes_cons]

/-! ## The columns of a line -/

/-- On a line, a column leads behind as few characters as reach it, and behind all of them if the line
is too short. -/
theorem exists_columnOffset {line back : Text} (unbroken : '\n' ∉ line)
    (ends : back = [] ∨ ∃ rest, back = '\n' :: rest) (character : Nat) :
    ∃ taken rest, line = taken ++ rest ∧ columnOffset (line ++ back) character = bytes taken
      ∧ min character (units line) ≤ units taken
      ∧ ∀ other more, line = other ++ more → min character (units line) ≤ units other →
          units taken ≤ units other := by
  induction line generalizing character with
  | nil =>
    refine ⟨[], [], rfl, ?_, Nat.min_le_right _ _, fun _ _ _ _ => Nat.zero_le _⟩
    rcases ends with rfl | ⟨rest, rfl⟩
    · rfl
    · rw [List.nil_append, columnOffset, if_pos (by simp), bytes_nil]
  | cons c others inductionHypothesis =>
    have inLine : '\n' ≠ c := List.ne_of_not_mem_cons unbroken
    have othersUnbroken := List.not_mem_of_not_mem_cons unbroken
    have wide := unitsOf_pos c
    by_cases first : character = 0
    · subst first
      exact ⟨[], c :: others, rfl, columnOffset_zero _, Nat.min_le_left _ _,
        fun _ _ _ _ => Nat.zero_le _⟩
    · obtain ⟨taken, rest, othersEq, size, reached, least⟩ :=
        inductionHypothesis othersUnbroken (character - unitsOf c)
      refine ⟨c :: taken, rest, ?_, ?_, ?_, ?_⟩
      · rw [othersEq, List.cons_append]
      · rw [List.cons_append, columnOffset_cons first (Ne.symm inLine), size, bytes_cons]
      · rw [units, units]
        omega
      · intro other more split enough
        rw [units] at enough ⊢
        cases other with
        | nil =>
          -- In front of the first character no column but the first is reached.
          rw [units] at enough
          omega
        | cons d other =>
          obtain ⟨rfl, othersSplit⟩ := List.cons.inj split
          rw [units] at enough ⊢
          exact Nat.add_le_add_left (least other more othersSplit (by omega)) _

namespace IsLine

variable {text front line back : Text} {number : Nat}

theorem after_front (isLine : IsLine text number front line back) :
    Position.after front = ⟨number, 0⟩ := by
  have above := isLine.above 0
  rw [Nat.zero_add] at above
  exact above

/-- The position behind some of a line is on that line. -/
theorem after_append (isLine : IsLine text number front line back) {taken rest : Text}
    (split : line = taken ++ rest) : Position.after (front ++ taken) = ⟨number, units taken⟩ := by
  have unbroken : '\n' ∉ taken := by
    intro broken
    apply isLine.unbroken
    rw [split]
    exact List.mem_append_left _ broken
  rw [Position.after_append, isLine.after_front, foldl_advance_of_not_mem unbroken, Nat.zero_add]

/-- A text that ends on a line takes in what stands in front of the line and a part of it. -/
theorem exists_of_after (isLine : IsLine text number front line back) {before rest : Text}
    {column : Nat} (whole : text = before ++ rest)
    (place : Position.after before = ⟨number, column⟩) :
    ∃ taken more, line = taken ++ more ∧ before = front ++ taken := by
  have same := whole.symm.trans isLine.whole
  rcases List.append_eq_append_iff.1 same with ⟨middle, frontEq, -⟩ | ⟨taken, beforeEq, restEq⟩
  · -- Anything left of the front would lead from this line to its own beginning.
    have none : middle = [] := by
      by_contra some
      have ahead := Position.lt_foldl_advance (Position.after before) some
      rw [← Position.after_append, ← frontEq, isLine.after_front, place, Position.lt_iff] at ahead
      simp at ahead
    rw [none, List.append_nil] at frontEq
    exact ⟨[], line, rfl, by rw [frontEq, List.append_nil]⟩
  · rcases List.append_eq_append_iff.1 restEq with ⟨beyond, takenEq, backEq⟩ | ⟨more, lineEq, -⟩
    · cases beyond with
      | nil =>
        rw [List.append_nil] at takenEq
        exact ⟨taken, [], by rw [takenEq, List.append_nil], beforeEq⟩
      | cons c beyond =>
        -- The line feed behind the line leads to a later line, and there is no way back.
        rcases isLine.ends with none | ⟨others, someEq⟩
        · rw [none] at backEq
          cases backEq
        · rw [someEq, List.cons_append] at backEq
          obtain ⟨rfl, -⟩ := List.cons.inj backEq
          have beforeSplit : before = (front ++ line) ++ '\n' :: beyond := by
            rw [beforeEq, takenEq, List.append_assoc]
          have ahead := Position.le_foldl_advance
            (Position.advance (Position.after (front ++ line)) '\n') beyond
          rw [← List.foldl_cons, ← Position.after_append, ← beforeSplit, place,
            isLine.after_append (List.append_nil line).symm, Position.advance_newline,
            Position.le_iff] at ahead
          simp only at ahead
          omega
    · exact ⟨taken, more, lineEq, beforeEq⟩

/-- The boundaries with a position on a line are those that cut it, and the column of each is what the
line measures in front of it. -/
theorem ofOffset?_iff (isLine : IsLine text number front line back) {offset column : Nat}
    (boundary : isBoundary text offset = true) :
    Position.ofOffset? text offset = some ⟨number, column⟩
      ↔ ∃ taken more, line = taken ++ more ∧ offset = bytes front + bytes taken
          ∧ column = units taken := by
  obtain ⟨before, rest, whole, rfl, place⟩ := Position.ofOffset?_of_isBoundary boundary
  rw [place, Option.some.injEq]
  constructor
  · intro onLine
    obtain ⟨taken, more, split, rfl⟩ := isLine.exists_of_after whole onLine
    rw [isLine.after_append split] at onLine
    exact ⟨taken, more, split, bytes_append _ _, (congrArg Position.character onLine).symm⟩
  · rintro ⟨taken, more, split, sizes, rfl⟩
    have same : before ++ rest = (front ++ taken) ++ (more ++ back) := by
      rw [← whole, isLine.whole, split, List.append_assoc, List.append_assoc]
    obtain ⟨rfl, -⟩ := append_inj_of_bytes same (by rw [sizes, bytes_append])
    exact isLine.after_append split

/-- A line takes no more units than the text has bytes. -/
theorem units_le_bytes (isLine : IsLine text number front line back) : units line ≤ bytes text := by
  obtain ⟨-, columns⟩ := Position.after_le_bytes (front ++ line)
  rw [isLine.after_append (List.append_nil line).symm] at columns
  rw [isLine.whole, ← List.append_assoc, bytes_append]
  exact Nat.le_trans columns (Nat.le_add_right _ _)

/-- A position on a line leads to the least column there that reaches its own or the end of the line. -/
theorem exists_isLeast (isLine : IsLine text number front line back) (character : Nat) :
    ∃ column, Position.ofOffset? text (lineOffset text number character) = some ⟨number, column⟩
      ∧ IsLeast {place | min character (units line) ≤ place
        ∧ ∃ offset, isBoundary text offset = true
          ∧ Position.ofOffset? text offset = some ⟨number, place⟩} column := by
  obtain ⟨taken, more, split, size, reached, least⟩ :=
    exists_columnOffset isLine.unbroken isLine.ends character
  have place : lineOffset text number character = bytes front + bytes taken := by
    rw [isLine.offset, size]
  have boundary : isBoundary text (lineOffset text number character) = true :=
    Position.offsetIn_isBoundary ⟨number, character⟩ text
  have known := (isLine.ofOffset?_iff boundary).2 ⟨taken, more, split, place, rfl⟩
  refine ⟨units taken, known, ⟨reached, _, boundary, known⟩, ?_⟩
  rintro column ⟨enough, offset, isBoundary, onLine⟩
  obtain ⟨other, beyond, otherSplit, -, rfl⟩ := (isLine.ofOffset?_iff isBoundary).1 onLine
  exact least other beyond otherSplit enough

/-- A column past the end of a line leads to its end. -/
theorem lineOffset_of_past (isLine : IsLine text number front line back) {character : Nat}
    (past : units line ≤ character) :
    lineOffset text number character = bytes (front ++ line) := by
  obtain ⟨taken, more, split, size, reached, -⟩ :=
    exists_columnOffset isLine.unbroken isLine.ends character
  rw [Nat.min_eq_right past, split, units_append] at reached
  have none : more = [] := eq_nil_of_units_eq_zero (by omega)
  rw [none, List.append_nil] at split
  rw [isLine.offset, size, bytes_append, split]

/-- The end of a line has the position behind all of the line. -/
theorem ofOffset?_of_past (isLine : IsLine text number front line back) {character : Nat}
    (past : units line ≤ character) :
    Position.ofOffset? text (lineOffset text number character) = some ⟨number, units line⟩ := by
  rw [isLine.lineOffset_of_past past]
  have whole : text = (front ++ line) ++ back := by
    rw [isLine.whole, List.append_assoc]
  rw [whole, Position.ofOffset?_bytes, isLine.after_append (List.append_nil line).symm]

/-- Behind the end of a line there is nothing, or its line feed. -/
theorem dropBytes?_of_past (isLine : IsLine text number front line back) {character : Nat}
    (past : units line ≤ character) :
    dropBytes? text (lineOffset text number character) = some back := by
  rw [isLine.lineOffset_of_past past]
  refine dropBytes?_eq_some_iff.2 ⟨front ++ line, ?_, rfl⟩
  rw [List.append_assoc, ← isLine.whole]

end IsLine

end Text

namespace Document

/-- Where positions lead, in a document whose lines and columns can be counted in 32 bits. On a line that
there is not, a position leads to the end of the text. On a line that there is, it leads to a place on
this line, which has the least column among the boundaries there whose column is not in front of that of
the position, or of the end of the line if the position lies behind that; then it leads to the end of the
line, in front of its line feed. A position leads to a boundary in any case. A later position does not
lead to a place in front, so a range whose ends are in order leads to a span whose ends are. -/
theorem offsetOf_isLeast (document : Document) (small : Text.bytes document.text < Position.limit) :
    (∀ position : Position, (Text.splitAt '\n' document.text)[position.line]? = none →
        document.offsetOf position = Text.bytes document.text)
      ∧ (∀ (position : Position) (line : Text),
          (Text.splitAt '\n' document.text)[position.line]? = some line →
          Text.units line < Position.limit
            ∧ ∃ column, document.positionOf? (document.offsetOf position)
                = some ⟨position.line, column⟩
              ∧ IsLeast {place | min position.character (Text.units line) ≤ place
                  ∧ ∃ offset, Text.isBoundary document.text offset = true
                    ∧ document.positionOf? offset = some ⟨position.line, place⟩} column
              ∧ (Text.units line ≤ position.character →
                  column = Text.units line ∧ ∃ rest,
                    Text.dropBytes? document.text (document.offsetOf position) = some rest
                      ∧ (rest = [] ∨ ∃ below, rest = '\n' :: below)))
      ∧ (∀ position, Text.isBoundary document.text (document.offsetOf position) = true)
      ∧ (∀ first second : Position, first ≤ second →
          document.offsetOf first ≤ document.offsetOf second)
      ∧ ∀ range : Range, range.start ≤ range.stop →
          (document.spanOf range).start ≤ (document.spanOf range).stop := by
  have monotone : ∀ first second : Position, first ≤ second →
      document.offsetOf first ≤ document.offsetOf second :=
    fun _ _ ordered => Text.lineOffset_mono document.text ordered
  refine ⟨?_, ?_, fun position => position.offsetIn_isBoundary _, monotone,
    fun range => monotone range.start range.stop⟩
  · intro position missing
    exact Text.lineOffset_of_getElem?_eq_none missing position.character
  · intro position line there
    obtain ⟨front, back, isLine⟩ := Text.exists_isLine there
    obtain ⟨column, place, least⟩ := isLine.exists_isLeast position.character
    refine ⟨Nat.lt_of_le_of_lt isLine.units_le_bytes small, column, place, least, ?_⟩
    intro past
    rw [isLine.ofOffset?_of_past past] at place
    exact ⟨(congrArg Position.character (Option.some.inj place)).symm, back,
      isLine.dropBytes?_of_past past, isLine.ends⟩

/-- A document with a character of two columns, an empty line, and no line feed at its end. -/
def pairInLine : Document := unchecked default "é😀x\n\nab".toList 1 .javascript

/-- A column inside the character of two columns leads behind it, one past the end of the line leads in
front of the line feed, and a line that there is not leads to the end. -/
theorem offsetOf_isLeast_pair :
    Text.bytes pairInLine.text < Position.limit
      ∧ (Text.splitAt '\n' pairInLine.text)[5]? = none ∧ pairInLine.offsetOf ⟨5, 1⟩ = 11
      ∧ (Text.splitAt '\n' pairInLine.text)[0]? = some "é😀x".toList
      ∧ pairInLine.positionOf? (pairInLine.offsetOf ⟨0, 2⟩) = some ⟨0, 3⟩
      ∧ IsLeast {place | 2 ≤ place ∧ ∃ offset, Text.isBoundary pairInLine.text offset = true
          ∧ pairInLine.positionOf? offset = some ⟨0, place⟩} 3
      ∧ pairInLine.positionOf? (pairInLine.offsetOf ⟨0, 99⟩) = some ⟨0, 4⟩
      ∧ Text.dropBytes? pairInLine.text (pairInLine.offsetOf ⟨0, 99⟩) = some "\n\nab".toList
      ∧ (⟨0, 2⟩ : Position) ≤ ⟨1, 3⟩
      ∧ pairInLine.offsetOf ⟨0, 2⟩ ≤ pairInLine.offsetOf ⟨1, 3⟩ := by
  have small : Text.bytes pairInLine.text < Position.limit := by decide
  have missing : (Text.splitAt '\n' pairInLine.text)[5]? = none := by decide
  have there : (Text.splitAt '\n' pairInLine.text)[0]? = some "é😀x".toList := by decide
  have inside : pairInLine.positionOf? (pairInLine.offsetOf ⟨0, 2⟩) = some ⟨0, 3⟩ := by decide
  have behind : Text.dropBytes? pairInLine.text (pairInLine.offsetOf ⟨0, 99⟩)
      = some "\n\nab".toList := by
    decide
  have ordered : (⟨0, 2⟩ : Position) ≤ ⟨1, 3⟩ := by decide
  obtain ⟨beyond, onLine, -, monotone, -⟩ := offsetOf_isLeast pairInLine small
  obtain ⟨-, column, place, least, -⟩ := onLine ⟨0, 2⟩ _ there
  obtain ⟨-, last, lastPlace, -, atEnd⟩ := onLine ⟨0, 99⟩ _ there
  obtain ⟨lastEq, -⟩ := atEnd (by decide)
  have columnEq : column = 3 := by
    rw [inside] at place
    exact (congrArg Position.character (Option.some.inj place)).symm
  rw [columnEq] at least
  rw [lastEq] at lastPlace
  exact ⟨small, missing, beyond ⟨5, 1⟩ missing, there, inside, least, lastPlace, behind, ordered,
    monotone _ _ ordered⟩

end Document

end FragmentLint
