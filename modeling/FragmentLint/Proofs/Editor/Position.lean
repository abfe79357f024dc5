import FragmentLint.Editor.Position

/-!
Contract: a position leads back to the text that it comes from.

Main statement: the position behind a text leads to the end of that text in every text that begins
with it (`Position.offsetIn_after`).

Does not own: positions that come from somewhere else.
-/

namespace FragmentLint

namespace Text

theorem unitsOf_pos (c : Char) : 0 < unitsOf c := by
  unfold unitsOf
  split <;> omega

@[simp] theorem units_append (left right : Text) : units (left ++ right) = units left + units right := by
  induction left with
  | nil => exact (Nat.zero_add _).symm
  | cons c rest inductionHypothesis =>
    rw [List.cons_append, units, units, inductionHypothesis, Nat.add_assoc]

theorem eq_nil_of_units_eq_zero {text : Text} (none : units text = 0) : text = [] := by
  cases text with
  | nil => rfl
  | cons c rest =>
    have wide := unitsOf_pos c
    rw [units] at none
    omega

theorem columnOffset_zero (text : Text) : columnOffset text 0 = 0 := by
  cases text <;> rfl

theorem columnOffset_cons {c : Char} {character : Nat} (behind : character ≠ 0)
    (sameLine : c ≠ '\n') (rest : Text) :
    columnOffset (c :: rest) character
      = c.utf8Size + columnOffset rest (character - unitsOf c) := by
  rw [columnOffset, if_neg]
  simp [behind, sameLine]

theorem lineOffset_zero (text : Text) (character : Nat) :
    lineOffset text 0 character = columnOffset text character := by
  unfold lineOffset
  rfl

end Text

namespace Position

theorem advance_newline (position : Position) : position.advance '\n' = ⟨position.line + 1, 0⟩ :=
  rfl

theorem advance_of_ne {c : Char} (sameLine : c ≠ '\n') (position : Position) :
    position.advance c = ⟨position.line, position.character + Text.unitsOf c⟩ := by
  rw [advance, if_neg]
  simpa using sameLine

/-- Whether a text takes from one position to another one, whatever follows it: along the line of the
first, or over the ends of lines. -/
def Crosses (start stop : Position) (crossed rest : Text) : Prop :=
  (stop.line = start.line ∧ start.character ≤ stop.character
      ∧ Text.columnOffset (crossed ++ rest) (stop.character - start.character)
        = Text.bytes crossed)
    ∨ start.line < stop.line
      ∧ Text.lineOffset (crossed ++ rest) (stop.line - start.line) stop.character
        = Text.bytes crossed

variable {start stop : Position} {crossed rest : Text}

theorem Crosses.cons_newline (crosses : (start.advance '\n').Crosses stop crossed rest) :
    start.Crosses stop ('\n' :: crossed) rest := by
  -- The line feed ends the line, so the way leads over the end of a line in any case.
  right
  rw [advance_newline] at crosses
  have later : start.line < stop.line := by
    rcases crosses with ⟨sameLine, -, -⟩ | ⟨later, -⟩
    · exact sameLine ▸ Nat.lt_succ_self start.line
    · exact Nat.lt_of_succ_lt later
  refine ⟨later, ?_⟩
  obtain ⟨lines, linesEq⟩ := Nat.exists_eq_add_of_lt later
  have split : stop.line - start.line = lines + 1 := by omega
  rw [split, List.cons_append, Text.lineOffset, if_pos (by rfl), Text.bytes_cons]
  apply congrArg
  rcases crosses with ⟨sameLine, -, column⟩ | ⟨farther, line⟩
  · have none : lines = 0 := by
      have : stop.line = start.line + 1 := sameLine
      omega
    rw [none, Text.lineOffset_zero]
    exact column
  · have left : stop.line - (start.line + 1) = lines := by omega
    rw [left] at line
    exact line

theorem Crosses.cons_of_ne {c : Char} (inLine : c ≠ '\n')
    (crosses : (start.advance c).Crosses stop crossed rest) :
    start.Crosses stop (c :: crossed) rest := by
  rw [advance_of_ne inLine] at crosses
  have wide := Text.unitsOf_pos c
  rcases crosses with ⟨sameLine, ahead, column⟩ | ⟨later, line⟩
  · left
    have behind : stop.character - start.character ≠ 0 := by
      simp only at ahead
      omega
    refine ⟨sameLine, by simp only at ahead; omega, ?_⟩
    rw [List.cons_append, Text.columnOffset_cons behind inLine, Nat.sub_sub, column,
      Text.bytes_cons]
  · right
    refine ⟨later, ?_⟩
    obtain ⟨lines, linesEq⟩ := Nat.exists_eq_add_of_lt later
    have split : stop.line - start.line = lines + 1 := by
      simp only at linesEq
      omega
    rw [split] at line ⊢
    rw [List.cons_append, Text.lineOffset, if_neg (by simpa using inLine), line, Text.bytes_cons]

/-- A text takes from a position to the one that its characters advance it to. -/
theorem crosses_foldl_advance (start : Position) (crossed rest : Text) :
    start.Crosses (crossed.foldl advance start) crossed rest := by
  induction crossed generalizing start with
  | nil =>
    refine Or.inl ⟨rfl, Nat.le_refl _, ?_⟩
    rw [List.foldl_nil, Nat.sub_self]
    exact Text.columnOffset_zero rest
  | cons c crossed inductionHypothesis =>
    rw [List.foldl_cons]
    have onward := inductionHypothesis (start.advance c)
    by_cases newline : c = '\n'
    · subst newline
      exact onward.cons_newline
    · exact onward.cons_of_ne newline

/-- The position behind a text leads to the end of it, whatever follows. -/
theorem offsetIn_after (text rest : Text) :
    (after text).offsetIn (text ++ rest) = Text.bytes text := by
  unfold offsetIn
  rcases crosses_foldl_advance origin text rest with ⟨firstLine, -, column⟩ | ⟨-, line⟩
  · have first : (after text).line = 0 := firstLine
    rw [first, Text.lineOffset_zero]
    exact column
  · exact line

end Position

end FragmentLint
