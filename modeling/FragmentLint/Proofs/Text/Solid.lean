import FragmentLint.Proofs.Text.Compiled

/-!
Contract: trimming text in pieces.

A piece that neither begins nor ends with a blank is solid. Main statements: a text is trimmed at
one end without regard to what is solid at the other (`trimFront_append`, `trimBack_append`).
-/

namespace FragmentLint.Text

/-- Whether a text is something that neither begins nor ends with a blank. -/
structure Solid (text : Text) : Prop where
  nonempty : text ≠ []
  lead : lead text = []
  trail : trail text = []

theorem solid_of_visible {first last : Char} (firstVisible : isBlankChar first = false)
    (lastVisible : isBlankChar last = false) (inside : Text) :
    Solid (first :: (inside ++ [last])) := by
  refine ⟨by simp, lead_cons_of_visible firstVisible _, ?_⟩
  unfold trail
  rw [← List.cons_append, List.reverse_append, List.reverse_singleton, List.singleton_append,
    lead_cons_of_visible lastVisible, List.reverse_nil]

theorem Bracketed.solid {piece : Text} (bracketed : piece.Bracketed) : piece.Solid := by
  obtain ⟨inside, rfl⟩ := bracketed
  exact solid_of_visible (by decide) (by decide) inside

theorem Solid.lead_append {piece : Text} (solid : piece.Solid) (rest : Text) :
    Text.lead (piece ++ rest) = [] := by
  obtain ⟨c, others, rfl⟩ := List.exists_cons_of_ne_nil solid.nonempty
  exact lead_cons_of_visible (visible_of_lead_eq_nil solid.lead) (others ++ rest)

theorem Solid.trail_append {piece : Text} (solid : piece.Solid) (before : Text) :
    Text.trail (before ++ piece) = [] := by
  have mirrored : Solid piece.reverse := by
    refine ⟨?_, ?_, ?_⟩
    · exact fun none => solid.nonempty (List.reverse_eq_nil_iff.1 none)
    · exact List.reverse_eq_nil_iff.1 solid.trail
    · unfold Text.trail
      rw [List.reverse_reverse, solid.lead, List.reverse_nil]
  unfold Text.trail
  rw [List.reverse_append, mirrored.lead_append, List.reverse_nil]

/-- The front of a text is trimmed without regard to something behind it that begins with no
blank. -/
theorem trimFront_append {right : Text} (none : lead right = []) (left : Text) :
    trimFront (left ++ right) = trimFront left ++ right := by
  cases blank : isBlank left with
  | true =>
    have whole := lead_append_trimLeft right
    rw [none, List.nil_append] at whole
    unfold trimFront
    rw [lead_append_of_isBlank blank, none, List.append_nil, trimLeft_append_of_isBlank blank,
      whole,
      lead_of_isBlank blank, trimLeft_eq_nil_iff.2 blank]
    split <;> rfl
  | false =>
    unfold trimFront
    rw [lead_append_of_not_isBlank blank, trimLeft_append_of_not_isBlank blank]
    split <;> rfl

/-- The back of a text is trimmed without regard to something in front of it that ends with no
blank. -/
theorem trimBack_append {left : Text} (none : trail left = []) (right : Text) :
    trimBack (left ++ right) = left ++ trimBack right := by
  have mirrored : lead left.reverse = [] := List.reverse_eq_nil_iff.1 none
  unfold trimBack
  rw [List.reverse_append, trimFront_append mirrored, List.reverse_append, List.reverse_reverse]

end FragmentLint.Text
