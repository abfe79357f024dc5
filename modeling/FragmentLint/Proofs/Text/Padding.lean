import FragmentLint.Text.LineTrim

/-!
Contract: trimming text that is surrounded by padding.

Padding is nothing, or a blank run with a line feed in it. Main statement: text in angle brackets is
what is left when the padding around it is trimmed (`trimLines_padded`).
-/

namespace FragmentLint.Text

/-- Whether a text is nothing, or a blank run over a line end. -/
def IsPadding (text : Text) : Prop := text = [] ∨ isBlank text = true ∧ '\n' ∈ text

/-- Whether a piece of text stands in angle brackets. -/
def Bracketed (piece : Text) : Prop := ∃ inside, piece = '<' :: (inside ++ ['>'])

theorem isBlank_append (left right : Text) :
    isBlank (left ++ right) = (isBlank left && isBlank right) := List.all_append

theorem isBlank_reverse (text : Text) : isBlank text.reverse = isBlank text := List.all_reverse

theorem isBlank_lead (text : Text) : isBlank (lead text) = true :=
  List.all_takeWhile

theorem isBlank_trail (text : Text) : isBlank (trail text) = true :=
  (isBlank_reverse _).trans (isBlank_lead _)

theorem lead_cons_of_visible {c : Char} (visible : isBlankChar c = false) (rest : Text) :
    lead (c :: rest) = [] := by
  unfold lead
  rw [List.takeWhile_cons_of_neg (by simp [visible])]

theorem visible_of_lead_eq_nil {c : Char} {rest : Text} (none : lead (c :: rest) = []) :
    isBlankChar c = false := by
  rw [lead, List.takeWhile_cons] at none
  split at none
  · cases none
  next noBlank => exact Bool.eq_false_iff.2 noBlank

theorem lead_append_of_isBlank {run : Text} (blank : isBlank run = true) (text : Text) :
    lead (run ++ text) = run ++ lead text :=
  List.takeWhile_append_of_pos (List.all_eq_true.1 blank)

theorem trimLeft_append_of_isBlank {run : Text} (blank : isBlank run = true) (text : Text) :
    trimLeft (run ++ text) = trimLeft text :=
  List.dropWhile_append_of_pos (List.all_eq_true.1 blank)

theorem IsPadding.reverse {run : Text} (padding : IsPadding run) : IsPadding run.reverse := by
  rcases padding with rfl | ⟨blank, lineFeed⟩
  · exact Or.inl rfl
  · exact Or.inr ⟨(isBlank_reverse run).trans blank, List.mem_reverse.2 lineFeed⟩

/-- Padding behind padding is padding. -/
theorem IsPadding.append {left right : Text} (first : IsPadding left) (second : IsPadding right) :
    IsPadding (left ++ right) := by
  rcases first with rfl | ⟨leftBlank, lineFeed⟩
  · exact second
  · rcases second with rfl | ⟨rightBlank, -⟩
    · rw [List.append_nil]
      exact Or.inr ⟨leftBlank, lineFeed⟩
    · refine Or.inr ⟨?_, List.mem_append_left _ lineFeed⟩
      rw [isBlank_append, leftBlank, rightBlank]
      rfl

/-- Padding in front of something that is not blank is trimmed. -/
theorem trimFront_padded {run : Text} (padding : IsPadding run) {c : Char}
    (visible : isBlankChar c = false) (rest : Text) :
    trimFront (run ++ c :: rest) = c :: rest := by
  have nothing := lead_cons_of_visible visible rest
  have kept : trimLeft (c :: rest) = c :: rest := by
    unfold trimLeft
    rw [List.dropWhile_cons_of_neg (by simp [visible])]
  rcases padding with rfl | ⟨blank, lineFeed⟩
  · exact trimFront_of_lead_nil nothing
  · unfold trimFront
    rw [lead_append_of_isBlank blank, nothing, List.append_nil, if_pos (by simpa using lineFeed),
      trimLeft_append_of_isBlank blank, kept]

/-- Of text in angle brackets with padding around it, the padding is trimmed and nothing else. -/
theorem trimLines_padded {before piece after : Text} (front : IsPadding before)
    (back : IsPadding after) (bracketed : piece.Bracketed) :
    trimLines (before ++ (piece ++ after)) = piece := by
  obtain ⟨inside, rfl⟩ := bracketed
  have less : isBlankChar '<' = false := by decide
  have greater : isBlankChar '>' = false := by decide
  have trimmedFront := trimFront_padded front less (inside ++ '>' :: after)
  have trimmedBack := trimFront_padded back.reverse greater (inside.reverse ++ ['<'])
  have mirrored : ('<' :: (inside ++ '>' :: after)).reverse
      = after.reverse ++ '>' :: (inside.reverse ++ ['<']) := by simp
  unfold trimLines trimBack
  rw [List.cons_append, List.append_assoc, List.singleton_append, trimmedFront, mirrored,
    trimmedBack]
  simp

/-- Trimming the front of a text drops padding there and does nothing else. -/
theorem exists_trimFront (text : Text) :
    ∃ front, IsPadding front ∧ text = front ++ trimFront text := by
  unfold trimFront
  split
  next lineFeed =>
    have padding : IsPadding (lead text) := Or.inr ⟨isBlank_lead text, by simpa using lineFeed⟩
    exact ⟨lead text, padding, (lead_append_trimLeft text).symm⟩
  next => exact ⟨[], Or.inl rfl, rfl⟩

/-- Trimming drops padding at both ends of a text and does nothing else. -/
theorem exists_trimLines (text : Text) :
    ∃ front back, IsPadding front ∧ IsPadding back
      ∧ text = front ++ (trimLines text ++ back) := by
  obtain ⟨front, frontPadding, frontEq⟩ := exists_trimFront text
  obtain ⟨mirrored, backPadding, mirroredEq⟩ := exists_trimFront (trimFront text).reverse
  have backEq : trimFront text = trimLines text ++ mirrored.reverse := by
    have straight := congrArg List.reverse mirroredEq
    rw [List.reverse_reverse, List.reverse_append] at straight
    exact straight
  refine ⟨front, mirrored.reverse, frontPadding, backPadding.reverse, ?_⟩
  rw [← backEq]
  exact frontEq

theorem bytes_trimLines_le (text : Text) : bytes (trimLines text) ≤ bytes text := by
  obtain ⟨front, back, -, -, whole⟩ := exists_trimLines text
  have sizes := congrArg bytes whole
  rw [bytes_append, bytes_append] at sizes
  omega

/-- There is nothing to see in padding. -/
theorem IsPadding.not_mem {run : Text} {c : Char} (padding : IsPadding run)
    (visible : isBlankChar c = false) : c ∉ run := by
  intro member
  rcases padding with rfl | ⟨blank, -⟩
  · cases member
  · rw [List.all_eq_true.1 blank c member] at visible
    cases visible

/-- Text in angle brackets does not reach into padding at the two ends of the whole. -/
theorem bytes_le_of_padded {front middle back before piece after : Text}
    (frontPadding : IsPadding front) (backPadding : IsPadding back) (bracketed : piece.Bracketed)
    (same : before ++ (piece ++ after) = front ++ (middle ++ back)) :
    bytes front ≤ bytes before ∧ bytes back ≤ bytes after := by
  obtain ⟨inside, rfl⟩ := bracketed
  have less : '<' ∉ front := frontPadding.not_mem (by decide)
  have greater : '>' ∉ back := backPadding.not_mem (by decide)
  constructor
  · rcases List.append_eq_append_iff.1 same with ⟨rest, frontEq, behind⟩ | ⟨rest, beforeEq, -⟩
    · cases rest with
      | nil =>
        rw [List.append_nil] at frontEq
        exact Nat.le_of_eq (congrArg bytes frontEq)
      | cons c others =>
        obtain rfl : '<' = c := (List.cons.inj behind).1
        refine absurd ?_ less
        rw [frontEq]
        exact List.mem_append_right _ List.mem_cons_self
    · rw [beforeEq, bytes_append]
      exact Nat.le_add_right _ _
  · have cut : (before ++ '<' :: inside) ++ '>' :: after = (front ++ middle) ++ back := by
      simpa using same
    rcases List.append_eq_append_iff.1 cut with ⟨rest, -, behind⟩ | ⟨rest, -, backEq⟩
    · cases rest with
      | nil =>
        have backEq : '>' :: after = back := behind
        refine absurd ?_ greater
        rw [← backEq]
        exact List.mem_cons_self
      | cons c others =>
        have afterEq : after = others ++ back := (List.cons.inj behind).2
        rw [afterEq, bytes_append]
        exact Nat.le_add_left _ _
    · refine absurd ?_ greater
      rw [backEq]
      exact List.mem_append_right _ List.mem_cons_self

end FragmentLint.Text
