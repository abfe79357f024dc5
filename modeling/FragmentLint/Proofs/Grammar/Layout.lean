import FragmentLint.Proofs.Grammar.Stripping

/-!
Contract: how far trivia is read.

All the trivia at the front of a text is read (`Trivia.next?_readAll`); a block comment in it ends
at the first mark that closes one. Trivia at the first mark of hidden lines is a hidden line.

Does not own: what may stand behind trivia.
-/

namespace FragmentLint

namespace Grammar.Trivia

/-- Whether a piece of trivia is a line that counts as no comment. -/
def isHidden : Trivia → Bool
  | hidden _ => true
  | _ => false

/-- Trivia that begins with the first mark of hidden lines is one. -/
theorem isHidden_of_next? {text rest : Text} {piece : Trivia} (marked : "<!--".toList <+: text)
    (found : next? true text = some (piece, rest)) : piece.isHidden = true := by
  obtain ⟨tail, rfl⟩ := marked
  have noPlain : nextPlain? ("<!--".toList ++ tail) = none := rfl
  unfold next? at found
  rw [noPlain] at found
  simp only [if_true] at found
  unfold nextHidden? at found
  split at found
  · cases found
    rfl
  · cases found

/-- A block comment goes up to the first mark that closes it. -/
theorem splitBlock?_eq_some_iff {body : Text} (rest : Text) :
    splitBlock? (body ++ '*' :: '/' :: rest) = some (body, rest) ↔ ¬ ['*', '/'] <:+: body := by
  induction body with
  | nil => simp [splitBlock?]
  | cons c body inductionHypothesis =>
    rw [List.infix_cons_iff, not_or, ← inductionHypothesis, List.cons_append]
    by_cases closes : ['*', '/'] <+: c :: body
    · obtain ⟨behind, rfl, rfl⟩ : ∃ behind, c = '*' ∧ body = '/' :: behind := by
        obtain ⟨behind, same⟩ := closes
        obtain ⟨rfl, rfl⟩ := List.cons.inj same
        exact ⟨behind, rfl, rfl⟩
      rw [List.cons_append, splitBlock?]
      simp [closes]
    · rw [splitBlock?]
      · simp [closes]
      · rintro behind rfl slash
        cases body with
        | nil => cases slash
        | cons d body =>
          obtain ⟨rfl, -⟩ := List.cons.inj slash
          exact closes ⟨body, rfl⟩

theorem readAll_of_none {text : Text} (none : next? true text = none) (bound : Text) :
    readAll bound text = ([], text) := by
  cases bound with
  | nil => rfl
  | cons _ bound => rw [readAll, none]

/-- No trivia is left in front of the rest. -/
theorem next?_readAll {bound text : Text} (long : text.length ≤ bound.length) :
    next? true (readAll bound text).2 = none := by
  induction bound generalizing text with
  | nil =>
    obtain rfl := List.length_eq_zero_iff.1 (Nat.le_zero.1 long)
    rfl
  | cons _ bound inductionHypothesis =>
    unfold readAll
    split
    next piece rest found =>
      obtain ⟨rfl, fits⟩ := next?_eq_some_iff.1 found
      obtain ⟨c, spelled, spellEq⟩ := exists_cons_of_fits fits
      refine inductionHypothesis ?_
      simp only [spellEq, List.cons_append, List.length_cons, List.length_append] at long
      omega
    next none => exact none

end Grammar.Trivia

end FragmentLint
