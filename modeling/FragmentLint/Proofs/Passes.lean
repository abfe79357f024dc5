import FragmentLint.Proofs.Fix

/-!
Contract: what the passes of a fix amount to.

A pass checks a text and applies every fix that is reported on it. Passes are made until no fix is
left, or ten of them have been made, or a text cannot be checked; the answer is about the text that
this leads to. Main statement: `fix_mends_or_fails`.

Does not own: for which sources a pass makes a text that cannot be checked.
-/

namespace FragmentLint

variable {settings : Settings} {dialect : Dialect} {source : Text}

theorem fixes_eq_nil_iff {reports : List Report} :
    fixes reports = [] ↔ ∀ report ∈ reports, report.fix = none := List.filterMap_eq_nil_iff

section Parser

variable [SyntaxParser]

/-- Passes lead to one text only. -/
theorem Reaches.unique {passes : Nat} {text other : Text}
    (first : Reaches settings dialect passes source text)
    (second : Reaches settings dialect passes source other) : other = text := by
  induction first with
  | here =>
    cases second
    rfl
  | pass checked left applied rest inductionHypothesis =>
    cases second with
    | pass checkedAgain _ appliedAgain restAgain =>
      -- Both first passes apply the fixes of the same check, so they make the same text.
      rw [checked] at checkedAgain
      obtain rfl := Except.ok.inj checkedAgain
      rw [applied] at appliedAgain
      obtain rfl := Option.some.inj appliedAgain
      exact inductionHypothesis restAgain

/-- The loop of passes as it counts them: it ends when there is nothing to fix or ten passes were
made, and otherwise goes on with the text that the next pass makes. -/
inductive Loop (settings : Settings) (dialect : Dialect) :
    Nat → Text → Except LintError FixOutcome → Prop where
  | fails {passes : Nat} {text : Text} {reason : LintError}
      (failed : lint settings dialect text = .error reason) :
      Loop settings dialect passes text (.error reason)
  | ends {passes : Nat} {text : Text} {reports : List Report}
      (checked : lint settings dialect text = .ok reports)
      (done : fixes reports = [] ∨ passes = 10) :
      Loop settings dialect passes text (.ok ⟨text, passes, reports⟩)
  | again {passes : Nat} {text mended : Text} {reports : List Report}
      {answer : Except LintError FixOutcome}
      (checked : lint settings dialect text = .ok reports)
      (goesOn : ¬ (fixes reports = [] ∨ passes = 10))
      (applied : Edit.applyAll text (fixes reports) = some mended)
      (rest : Loop settings dialect (passes + 1) mended answer) :
      Loop settings dialect passes text answer

/-- The loop has one answer only. -/
theorem Loop.fixFrom_eq {passes left : Nat} {answer : Except LintError FixOutcome}
    (loop : Loop settings dialect passes source answer) (budget : passes + left = 10) :
    fixFrom settings dialect passes source left = answer := by
  induction loop generalizing left with
  | @fails passes text reason failed => exact fixFrom_eq_error_of_lint passes left failed
  | @ends passes text reports checked done =>
    cases left with
    | zero =>
      rw [fixFrom, checked]
      rfl
    | succ left =>
      have none : fixes reports = [] := done.resolve_right (by omega)
      rw [fixFrom_eq_of_lint passes left checked, if_pos none]
  | @again passes text mended reports answer checked goesOn applied rest inductionHypothesis =>
    obtain ⟨some, early⟩ := not_or.1 goesOn
    cases left with
    | zero => exact absurd budget early
    | succ left =>
      rw [fixFrom_eq_of_lint passes left checked, if_neg some, applied]
      apply inductionHypothesis
      omega

/-- A text without fixes is its own fix, after no pass. -/
theorem fix_eq_self {reports : List Report} (checked : lint settings dialect source = .ok reports)
    (none : fixes reports = []) : fix settings dialect source = .ok ⟨source, 0, reports⟩ := by
  have first : fix settings dialect source = fixFrom settings dialect 0 source (9 + 1) := rfl
  rw [first, fixFrom_eq_of_lint 0 9 checked, if_pos none]

/-- What the outcome of a fix is to its source. -/
structure FixOutcome.Mends (settings : Settings) (dialect : Dialect) (source : Text)
    (outcome : FixOutcome) : Prop where
  passes_le : outcome.passes ≤ 10
  /-- Each of the passes started from a text with at least one fix. -/
  reaches : Reaches settings dialect outcome.passes source outcome.output
  /-- The output is the only text that as many passes lead to. -/
  unique : ∀ text, Reaches settings dialect outcome.passes source text → text = outcome.output
  checked : lint settings dialect outcome.output = .ok outcome.remaining
  done : (∀ report ∈ outcome.remaining, report.fix = none) ∨ outcome.passes = 10
  again : outcome.passes < 10 →
    fix settings dialect outcome.output = .ok ⟨outcome.output, 0, outcome.remaining⟩

theorem mends_of_reaches {passes : Nat} {text : Text} {reports : List Report} (within : passes ≤ 10)
    (reaches : Reaches settings dialect passes source text)
    (checked : lint settings dialect text = .ok reports)
    (done : fixes reports = [] ∨ passes = 10) :
    FixOutcome.Mends settings dialect source ⟨text, passes, reports⟩ := by
  refine ⟨within, reaches, fun other => reaches.unique, checked, ?_, ?_⟩
  · exact done.imp_left fixes_eq_nil_iff.1
  · intro early
    apply fix_eq_self checked
    exact done.resolve_right (Nat.ne_of_lt early)

variable [LawfulSyntaxParser]

/-- The loop ends, and what is left of the ten passes is how often it can go on. -/
theorem loop_fixFrom (source : Text) (passes left : Nat) (budget : passes + left = 10) :
    Loop settings dialect passes source (fixFrom settings dialect passes source left) := by
  induction left generalizing passes source with
  | zero =>
    cases checked : lint settings dialect source with
    | error reason =>
      rw [fixFrom_eq_error_of_lint passes 0 checked]
      exact .fails checked
    | ok reports =>
      rw [fixFrom, checked]
      exact .ends checked (Or.inr budget)
  | succ left inductionHypothesis =>
    cases checked : lint settings dialect source with
    | error reason =>
      rw [fixFrom_eq_error_of_lint passes (left + 1) checked]
      exact .fails checked
    | ok reports =>
      obtain ⟨mended, applied⟩ := exists_pass checked
      rw [fixFrom_eq_of_lint passes left checked, applied]
      by_cases none : fixes reports = []
      · rw [if_pos none]
        exact .ends checked (Or.inl none)
      · rw [if_neg none]
        have goesOn : ¬ (fixes reports = [] ∨ passes = 10) := by
          rintro (nothing | full)
          · exact none nothing
          · omega
        apply Loop.again checked goesOn applied
        apply inductionHypothesis
        omega

/-- A fix of a text that has fixes makes a pass at least. -/
theorem changed_of_fix {reports : List Report} {outcome : FixOutcome}
    (checked : lint settings dialect source = .ok reports) (left : fixes reports ≠ [])
    (fixed : fix settings dialect source = .ok outcome) : outcome.changed = true := by
  obtain ⟨made, -, text, reaches, ⟨remaining, checkedToo, done, answered⟩ | ⟨reason, -, answered⟩⟩ :=
    @exists_end_of_fixFrom settings dialect _ _ source 0 maxPasses
  · rw [fix, answered, Nat.zero_add] at fixed
    obtain rfl := Except.ok.inj fixed
    rw [FixOutcome.changed, decide_eq_true_eq, Nat.pos_iff_ne_zero]
    intro none
    -- Without a pass the text is still the source, which has something to fix.
    subst none
    cases reaches
    rw [checked] at checkedToo
    obtain rfl := Except.ok.inj checkedToo
    apply left
    apply done.resolve_right
    decide
  · rw [fix, answered] at fixed
    cases fixed

/-- The contract of a fix. The loop of passes ends with what the fix answers, for every source, and
with nothing else. If it succeeds, the output is the source after exactly as many passes as are
counted, ten at most, each of which had something to fix; the reports are those on the output; none
of them has a fix unless there were ten passes; and with fewer passes, fixing the output changes
nothing. If it fails, it does so for the reason for which the text after some number of passes, ten at
most, cannot be checked. -/
theorem fix_mends_or_fails (settings : Settings) (dialect : Dialect) (source : Text) :
    (∀ answer, Loop settings dialect 0 source answer ↔ fix settings dialect source = answer)
    ∧ ((∃ outcome, fix settings dialect source = .ok outcome
        ∧ outcome.Mends settings dialect source)
      ∨ ∃ reason, fix settings dialect source = .error reason
        ∧ ∃ passes ≤ 10, ∃ text, Reaches settings dialect passes source text
          ∧ lint settings dialect text = .error reason) := by
  constructor
  · intro answer
    constructor
    · intro loop
      exact loop.fixFrom_eq (Nat.zero_add 10)
    · rintro rfl
      exact loop_fixFrom source 0 10 (Nat.zero_add 10)
  · obtain ⟨passes, within, text, reaches, ends⟩ :=
      @exists_end_of_fixFrom settings dialect _ _ source 0 maxPasses
    rcases ends with ⟨reports, checked, done, answered⟩ | ⟨reason, failed, answered⟩
    · rw [Nat.zero_add] at answered
      exact Or.inl ⟨⟨text, passes, reports⟩, answered,
        mends_of_reaches within reaches checked done⟩
    · exact Or.inr ⟨reason, answered, passes, within, text, reaches, failed⟩

end Parser

open Scripts

/-- Of twelve fragments within each other each pass takes one away, and after ten passes there is
still something to fix. -/
theorem fix_mends_or_fails_at_bound :
    ∃ outcome, fix .unset .javascript
        "<p><><><><><><><><><><><><><b/></></></></></></></></></></></></></p>".toList = .ok outcome
      ∧ outcome.output = "<p><><><b/></></></p>".toList ∧ outcome.passes = 10
      ∧ (fixes outcome.remaining).isEmpty = false
      ∧ outcome.Mends .unset .javascript
        "<p><><><><><><><><><><><><><b/></></></></></></></></></></></></></p>".toList := by
  have fixed : (fix .unset .javascript
      "<p><><><><><><><><><><><><><b/></></></></></></></></></></></></></p>".toList).toOption.map
        (fun outcome => (outcome.output, outcome.passes, (fixes outcome.remaining).isEmpty))
      = some ("<p><><><b/></></></p>".toList, 10, false) := by
    decide +kernel
  obtain ⟨outcome, isOutcome, parts⟩ := Option.map_eq_some_iff.1 fixed
  simp only [Prod.mk.injEq] at parts
  obtain ⟨outputEq, passesEq, left⟩ := parts
  have answered := ok_of_toOption isOutcome
  refine ⟨outcome, answered, outputEq, passesEq, left, ?_⟩
  obtain ⟨-, ⟨same, sameEq, mends⟩ | ⟨reason, failed, -⟩⟩ := fix_mends_or_fails .unset .javascript
    "<p><><><><><><><><><><><><><b/></></></></></></></></></></></></></p>".toList
  · rw [answered] at sameEq
    rw [Except.ok.inj sameEq]
    exact mends
  · rw [answered] at failed
    cases failed

end FragmentLint
