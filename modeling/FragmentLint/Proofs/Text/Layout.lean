import FragmentLint.Grammar.Trivia

/-!
Contract: texts of white space and comments.

Layout is told by its characters (`Text.IsLayout`): each block comment in it ends at the first mark
that closes one, and each line comment at the end of its line. So what is in front of a piece of it
can be taken off in one way only. Main statements: a text is layout if and only if what stands
behind its first white space or comment is (`isLayout_append_iff`, `isLayout_line_iff`,
`isLayout_block_iff`).
-/

namespace FragmentLint.Text

open Grammar.Trivia (isSpace endsLine)

/-- Whether a text is nothing but white space and comments. -/
inductive IsLayout : Text → Prop where
  | nil : IsLayout []
  | space {c : Char} {rest : Text} (blank : isSpace c = true) (others : IsLayout rest) :
      IsLayout (c :: rest)
  | line {body : Text} {c : Char} {rest : Text} (onLine : ∀ d ∈ body, endsLine d = false)
      (ends : endsLine c = true) (others : IsLayout (c :: rest)) :
      IsLayout ('/' :: '/' :: (body ++ c :: rest))
  | block {body rest : Text} (unclosed : ¬ ['*', '/'] <:+: body) (others : IsLayout rest) :
      IsLayout ('/' :: '*' :: (body ++ '*' :: '/' :: rest))

/-- Whether a text begins with something that is neither white space nor a comment. -/
structure StandsOut (text : Text) : Prop where
  visible : ∃ c rest, text = c :: rest ∧ isSpace c = false
  noLine : ¬ ['/', '/'] <+: text
  noBlock : ∀ body rest, text ≠ '/' :: '*' :: (body ++ '*' :: '/' :: rest)

theorem StandsOut.not_isLayout {text : Text} (standsOut : text.StandsOut) : ¬ IsLayout text := by
  obtain ⟨⟨c, rest, rfl, visible⟩, noLine, noBlock⟩ := standsOut
  intro layout
  cases layout with
  | space blank =>
    rw [blank] at visible
    cases visible
  | line => exact noLine ⟨_, rfl⟩
  | block => exact noBlock _ _ rfl

theorem isLayout_cons_iff {c : Char} {rest : Text} (blank : isSpace c = true) :
    IsLayout (c :: rest) ↔ IsLayout rest := by
  refine ⟨fun layout => ?_, .space blank⟩
  cases layout with
  | space _ others => exact others
  | line => cases blank
  | block => cases blank

theorem isLayout_append_iff {run rest : Text} (blank : ∀ c ∈ run, isSpace c = true) :
    IsLayout (run ++ rest) ↔ IsLayout rest := by
  induction run with
  | nil => exact Iff.rfl
  | cons c run inductionHypothesis =>
    obtain ⟨first, others⟩ := List.forall_mem_cons.1 blank
    exact (isLayout_cons_iff first).trans (inductionHypothesis others)

theorem isLayout_of_blank {run : Text} (blank : ∀ c ∈ run, isSpace c = true) : IsLayout run := by
  have layout := (@isLayout_append_iff run [] blank).2 .nil
  rwa [List.append_nil] at layout

/-- Runs of characters of one class that are ended by a character of another one are the same. -/
theorem append_inj_of_ends {test : Char → Bool} {left right : Text} {c d : Char} {rest rest' : Text}
    (inLeft : ∀ e ∈ left, test e = false) (inRight : ∀ e ∈ right, test e = false)
    (endsLeft : test c = true) (endsRight : test d = true)
    (same : left ++ c :: rest = right ++ d :: rest') : c :: rest = d :: rest' := by
  induction left generalizing right with
  | nil =>
    cases right with
    | nil => exact same
    | cons e right =>
      obtain ⟨rfl, -⟩ := List.cons.inj same
      rw [inRight c List.mem_cons_self] at endsLeft
      cases endsLeft
  | cons e left inductionHypothesis =>
    cases right with
    | nil =>
      obtain ⟨rfl, -⟩ := List.cons.inj same
      rw [inLeft e List.mem_cons_self] at endsRight
      cases endsRight
    | cons e' right =>
      exact inductionHypothesis (List.forall_mem_cons.1 inLeft).2 (List.forall_mem_cons.1 inRight).2
        (List.cons.inj same).2

/-- A line comment goes up to the end of its line. -/
theorem isLayout_line_iff {body : Text} {c : Char} {rest : Text}
    (onLine : ∀ d ∈ body, endsLine d = false) (ends : endsLine c = true) :
    IsLayout ('/' :: '/' :: (body ++ c :: rest)) ↔ IsLayout (c :: rest) := by
  refine ⟨fun layout => ?_, .line onLine ends⟩
  generalize written : '/' :: '/' :: (body ++ c :: rest) = text at layout
  cases layout with
  | nil => cases written
  | space blank =>
    obtain ⟨rfl, -⟩ := List.cons.inj written
    cases blank
  | line onLine' ends' others =>
    have same := (List.cons.inj (List.cons.inj written).2).2
    rwa [append_inj_of_ends onLine onLine' ends ends' same]
  | block =>
    obtain ⟨-, second⟩ := List.cons.inj written
    cases (List.cons.inj second).1

/-- A text without a mark goes up to the first place where the mark stands behind it. -/
theorem append_inj_of_unclosed {left right rest rest' : Text}
    (inLeft : ¬ ['*', '/'] <:+: left) (inRight : ¬ ['*', '/'] <:+: right)
    (same : left ++ '*' :: '/' :: rest = right ++ '*' :: '/' :: rest') : rest = rest' := by
  induction left generalizing right with
  | nil =>
    cases right with
    | nil => exact (List.cons.inj (List.cons.inj same).2).2
    | cons c right =>
      obtain ⟨rfl, second⟩ := List.cons.inj same
      cases right with
      | nil => cases (List.cons.inj second).1
      | cons d right =>
        obtain ⟨rfl, -⟩ := List.cons.inj second
        exact absurd ⟨[], right, rfl⟩ inRight
  | cons c left inductionHypothesis =>
    cases right with
    | nil =>
      obtain ⟨rfl, second⟩ := List.cons.inj same
      cases left with
      | nil => cases (List.cons.inj second).1
      | cons d left =>
        obtain ⟨rfl, -⟩ := List.cons.inj second
        exact absurd ⟨[], left, rfl⟩ inLeft
    | cons d right =>
      rw [List.infix_cons_iff, not_or] at inLeft inRight
      exact inductionHypothesis inLeft.2 inRight.2 (List.cons.inj same).2

/-- A block comment goes up to the first mark that closes it. -/
theorem isLayout_block_iff {body rest : Text} (unclosed : ¬ ['*', '/'] <:+: body) :
    IsLayout ('/' :: '*' :: (body ++ '*' :: '/' :: rest)) ↔ IsLayout rest := by
  refine ⟨fun layout => ?_, .block unclosed⟩
  generalize written : '/' :: '*' :: (body ++ '*' :: '/' :: rest) = text at layout
  cases layout with
  | nil => cases written
  | space blank =>
    obtain ⟨rfl, -⟩ := List.cons.inj written
    cases blank
  | line =>
    obtain ⟨-, second⟩ := List.cons.inj written
    cases (List.cons.inj second).1
  | block unclosed' others =>
    have same := (List.cons.inj (List.cons.inj written).2).2
    rwa [append_inj_of_unclosed unclosed unclosed' same]

end FragmentLint.Text
