import FragmentLint.Proofs.Edit
import FragmentLint.Proofs.Grammar.Concrete
import FragmentLint.Proofs.Pragma
import FragmentLint.Proofs.Rule.Removal

/-!
Contract: when a source can be fixed.

A pass applies the fixes of a check, which can always be applied (`exists_pass`). The text that it
makes is checked again, and may be refused: a fix may take away the comment that named fragments, or
put next to each other what was no markup before. Main statements: a source that can be checked is
fixed if and only if every text on the way is accepted (`fix_eq_ok_iff_accepted`), and there are
sources that can be checked and not fixed (`lintable_not_fixable`).
-/

namespace FragmentLint

variable {settings : Settings} {dialect : Dialect}

/-- The reasons for which a text is refused: there is no concrete tree of it, or one with an error,
or it names fragments by no identifier. -/
inductive LintError.IsRefusal : LintError → Prop where
  | noTree : IsRefusal .noTree
  | malformedSource {offset : Nat} : IsRefusal (.malformedSource offset)
  | invalidPragma {value : Text} : IsRefusal (.invalidPragma ⟨.react, value⟩)

section Parser

variable [SyntaxParser]

/-- Whether the text is reached from a source by a number of passes, each of which applies the fixes
of a check. -/
inductive Reaches (settings : Settings) (dialect : Dialect) : Nat → Text → Text → Prop where
  | here {source : Text} : Reaches settings dialect 0 source source
  | pass {passes : Nat} {source mended text : Text} {reports : List Report}
      (checked : lint settings dialect source = .ok reports) (left : fixes reports ≠ [])
      (applied : Edit.applyAll source (fixes reports) = some mended)
      (rest : Reaches settings dialect passes mended text) :
      Reaches settings dialect (passes + 1) source text

/-- Whether a text is accepted: it is read, and the name in front of the dot is an identifier. -/
def Accepted (settings : Settings) (dialect : Dialect) (text : Text) : Prop :=
  ∃ tree react, Tree.ofSource dialect text = .ok tree
    ∧ Pragmas.resolveReact tree.comments settings = .ok react

/-- One pass: the check, and, as long as there are fixes and passes left, what follows on the mended
text. -/
theorem fixFrom_eq_of_lint {source : Text} {reports : List Report} (passes left : Nat)
    (checked : lint settings dialect source = .ok reports) :
    fixFrom settings dialect passes source (left + 1)
      = if fixes reports = [] then .ok ⟨source, passes, reports⟩
        else match Edit.applyAll source (fixes reports) with
          | some mended => fixFrom settings dialect (passes + 1) mended left
          | none => .error (.badSlice ⟨⟨0, Text.bytes source⟩⟩) := by
  rw [fixFrom, checked]
  simp only [bind, Except.bind, List.isEmpty_iff]
  rfl

theorem fixFrom_eq_error_of_lint {source : Text} {reason : LintError} (passes left : Nat)
    (failed : lint settings dialect source = .error reason) :
    fixFrom settings dialect passes source left = .error reason := by
  cases left with
  | zero =>
    rw [fixFrom, failed]
    rfl
  | succ left =>
    rw [fixFrom, failed]
    rfl

/-- Where fixing succeeds, every text that can be reached in as many passes is checked. -/
theorem lint_of_reaches {source text : Text} {passes left made : Nat} {outcome : FixOutcome}
    (fixed : fixFrom settings dialect passes source left = .ok outcome) (within : made ≤ left)
    (reaches : Reaches settings dialect made source text) :
    ∃ reports, lint settings dialect text = .ok reports := by
  induction reaches generalizing passes left with
  | @here source =>
    cases checked : lint settings dialect source with
    | error reason =>
      rw [fixFrom_eq_error_of_lint passes left checked] at fixed
      cases fixed
    | ok reports => exact ⟨reports, rfl⟩
  | @pass made source mended text reports checked some applied _ inductionHypothesis =>
    -- A pass is left, as one was made; the rest of the way starts from the mended text.
    obtain ⟨left, rfl⟩ : ∃ fewer, left = fewer + 1 := ⟨left - 1, by omega⟩
    rw [fixFrom_eq_of_lint passes left checked, if_neg some, applied] at fixed
    exact inductionHypothesis fixed (Nat.le_of_succ_le_succ within)

variable [LawfulSyntaxParser]

/-- The fixes of a check can be applied. -/
theorem exists_pass {source : Text} {reports : List Report}
    (checked : lint settings dialect source = .ok reports) :
    ∃ mended, Edit.applyAll source (fixes reports) = some mended := by
  apply Edit.exists_applyAll
  intro edit member
  obtain ⟨report, isReport, fixed⟩ := List.mem_filterMap.1 member
  obtain ⟨⟨piece, delimits⟩, sameRange⟩ := report_delimits checked isReport
  rw [sameRange edit fixed]
  exact ⟨piece, delimits⟩

/-- A source can be checked if and only if it is accepted and the name behind the dot, which does
not depend on the source, is an identifier. -/
theorem exists_lint_iff {source : Text} :
    (∃ reports, lint settings dialect source = .ok reports) ↔
      Accepted settings dialect source ∧ ∃ fragment, Pragmas.resolveFragment settings
        = .ok fragment := by
  constructor
  · rintro ⟨reports, checked⟩
    obtain ⟨tree, pragmas, read, resolved, -⟩ := lint_eq_ok_iff.1 checked
    obtain ⟨react, fragment⟩ := Pragmas.resolve_eq_ok_iff.1 resolved
    exact ⟨⟨tree, _, read, react⟩, _, fragment⟩
  · rintro ⟨⟨tree, react, read, isReact⟩, fragment, isFragment⟩
    obtain ⟨all, records⟩ := Tree.exists_records read
    obtain ⟨reports, found⟩ := records.exists_reports ⟨react, fragment⟩
    exact ⟨reports, lint_eq_ok_iff.2 ⟨_, ⟨react, fragment⟩, read,
      Pragmas.resolve_eq_ok_iff.2 ⟨isReact, isFragment⟩, found⟩⟩

/-- The check of a source that is not accepted fails for that reason. -/
theorem isRefusal_of_lint {source : Text} {reason : LintError} {fragment : Text}
    (isFragment : Pragmas.resolveFragment settings = .ok fragment)
    (failed : lint settings dialect source = .error reason) : reason.IsRefusal := by
  rcases lint_eq_error_iff.1 failed with unread | ⟨tree, invalid, -, unresolved, rfl⟩
  · rcases Tree.ofSource_eq_error_iff.1 unread with ⟨-, rfl⟩ | ⟨root, -, -, rfl⟩
    · exact .noTree
    · exact .malformedSource
  · unfold Pragmas.resolve at unresolved
    rw [isFragment] at unresolved
    cases found : Pragmas.resolveReact tree.comments settings with
    | ok react =>
      rw [found] at unresolved
      cases unresolved
    | error other =>
      rw [found] at unresolved
      cases unresolved
      obtain ⟨role, value⟩ := invalid
      obtain rfl : role = .react := Pragmas.role_of_validate found
      exact .invalidPragma

/-- Fixing ends at a text that was reached. What is answered there is that text with the reports on
it, none of which has a fix unless the passes are used up, or why the text cannot be checked. -/
theorem exists_end_of_fixFrom (source : Text) (passes left : Nat) :
    ∃ made ≤ left, ∃ text, Reaches settings dialect made source text
      ∧ ((∃ reports, lint settings dialect text = .ok reports
          ∧ (fixes reports = [] ∨ made = left)
          ∧ fixFrom settings dialect passes source left = .ok ⟨text, passes + made, reports⟩)
        ∨ ∃ reason, lint settings dialect text = .error reason
          ∧ fixFrom settings dialect passes source left = .error reason) := by
  induction left generalizing passes source with
  | zero =>
    refine ⟨0, Nat.le_refl 0, source, .here, ?_⟩
    cases checked : lint settings dialect source with
    | error reason => exact Or.inr ⟨reason, rfl, fixFrom_eq_error_of_lint passes 0 checked⟩
    | ok reports =>
      refine Or.inl ⟨reports, rfl, Or.inr rfl, ?_⟩
      rw [fixFrom, checked]
      rfl
  | succ left inductionHypothesis =>
    cases checked : lint settings dialect source with
    | error reason =>
      exact ⟨0, Nat.zero_le _, source, .here,
        Or.inr ⟨reason, checked, fixFrom_eq_error_of_lint passes (left + 1) checked⟩⟩
    | ok reports =>
      obtain ⟨mended, applied⟩ := exists_pass checked
      rw [fixFrom_eq_of_lint passes left checked, applied]
      by_cases none : fixes reports = []
      · rw [if_pos none]
        exact ⟨0, Nat.zero_le _, source, .here, Or.inl ⟨reports, checked, Or.inl none, rfl⟩⟩
      · rw [if_neg none]
        obtain ⟨made, within, text, reaches, ends⟩ := inductionHypothesis mended (passes + 1)
        refine ⟨made + 1, Nat.succ_le_succ within, text, .pass checked none applied reaches, ?_⟩
        have count : passes + 1 + made = passes + (made + 1) := by omega
        rw [count] at ends
        rcases ends with ⟨found, checkedThere, done, answered⟩ | failed
        · exact Or.inl ⟨found, checkedThere, done.imp_right (congrArg (· + 1)), answered⟩
        · exact Or.inr failed

/-- A source that can be checked is fixed if and only if every text on the way, the last one
included, is accepted. The answer is then the last text, with its reports. Otherwise a text that the
fixes made is not read, or names fragments by no identifier; nothing else goes wrong. -/
theorem fix_eq_ok_iff_accepted {source : Text} {reports : List Report}
    (checked : lint settings dialect source = .ok reports) :
    ((∃ outcome, fix settings dialect source = .ok outcome) ↔
      ∀ passes ≤ maxPasses, ∀ text, Reaches settings dialect passes source text →
        Accepted settings dialect text)
    ∧ (∀ outcome, fix settings dialect source = .ok outcome →
      Reaches settings dialect outcome.passes source outcome.output
        ∧ lint settings dialect outcome.output = .ok outcome.remaining
        ∧ (fixes outcome.remaining = [] ∨ outcome.passes = maxPasses))
    ∧ ∀ reason, fix settings dialect source = .error reason →
      reason.IsRefusal ∧ ∃ passes ≤ maxPasses, 0 < passes ∧ ∃ text,
        Reaches settings dialect passes source text ∧ ¬ Accepted settings dialect text := by
  obtain ⟨-, fragment, isFragment⟩ := exists_lint_iff.1 ⟨reports, checked⟩
  have failure : ∀ reason, fix settings dialect source = .error reason →
      reason.IsRefusal ∧ ∃ passes ≤ maxPasses, 0 < passes ∧ ∃ text,
        Reaches settings dialect passes source text ∧ ¬ Accepted settings dialect text := by
    intro reason failed
    obtain ⟨passes, within, text, reaches, ends⟩ := exists_end_of_fixFrom source 0 maxPasses
    obtain ⟨_, -, -, answered⟩ | ⟨other, failedThere, answered⟩ := ends
    · rw [fix, answered] at failed
      cases failed
    rw [fix, answered] at failed
    obtain rfl := Except.error.inj failed
    refine ⟨isRefusal_of_lint isFragment failedThere, passes, within, ?_, text, reaches, ?_⟩
    · -- The source itself is checked, so the text that is refused was made by a fix.
      rw [Nat.pos_iff_ne_zero]
      rintro rfl
      cases reaches
      rw [checked] at failedThere
      cases failedThere
    · intro accepted
      obtain ⟨found, checkedThere⟩ := exists_lint_iff.2 ⟨accepted, fragment, isFragment⟩
      rw [failedThere] at checkedThere
      cases checkedThere
  refine ⟨⟨?_, ?_⟩, ?_, failure⟩
  · rintro ⟨outcome, fixed⟩ passes within text reaches
    exact (exists_lint_iff.1 (lint_of_reaches fixed within reaches)).1
  · intro accepted
    cases fixed : fix settings dialect source with
    | ok outcome => exact ⟨outcome, rfl⟩
    | error reason =>
      obtain ⟨-, passes, within, -, text, reaches, refused⟩ := failure reason fixed
      exact absurd (accepted passes within text reaches) refused
  · intro outcome fixed
    obtain ⟨made, -, text, reaches, ends⟩ := exists_end_of_fixFrom source 0 maxPasses
    obtain ⟨reports, checkedThere, done, answered⟩ | ⟨reason, -, answered⟩ := ends
    · rw [fix, answered, Nat.zero_add] at fixed
      obtain rfl := Except.ok.inj fixed
      exact ⟨reaches, checkedThere, done⟩
    · rw [fix, answered] at fixed
      cases fixed

end Parser

open Scripts

/-- Two nested fragments are taken away in two passes, and every text on the way is accepted. -/
theorem fix_eq_ok_iff_accepted_nested :
    ∃ reports outcome, lint .unset .javascript "<div><><><b/></></></div>".toList = .ok reports
      ∧ fix .unset .javascript "<div><><><b/></></></div>".toList = .ok outcome
      ∧ outcome.output = "<div><b/></div>".toList ∧ outcome.passes = 2
      ∧ Reaches .unset .javascript 2 "<div><><><b/></></></div>".toList outcome.output
      ∧ ∀ passes ≤ maxPasses, ∀ text,
        Reaches .unset .javascript passes "<div><><><b/></></></div>".toList text →
          Accepted .unset .javascript text := by
  have lintable : (lint .unset .javascript "<div><><><b/></></></div>".toList).toOption.isSome
      = true := by
    decide +kernel
  have fixed : (fix .unset .javascript "<div><><><b/></></></div>".toList).toOption.map
      (fun outcome => (outcome.output, outcome.passes)) = some ("<div><b/></div>".toList, 2) := by
    decide +kernel
  obtain ⟨reports, checked⟩ := Option.isSome_iff_exists.1 lintable
  obtain ⟨outcome, isOutcome, parts⟩ := Option.map_eq_some_iff.1 fixed
  obtain ⟨outputEq, passesEq⟩ := Prod.mk.inj parts
  obtain ⟨exact, answer, -⟩ := fix_eq_ok_iff_accepted (ok_of_toOption checked)
  have reaches := (answer outcome (ok_of_toOption isOutcome)).1
  rw [passesEq] at reaches
  exact ⟨reports, outcome, ok_of_toOption checked, ok_of_toOption isOutcome, outputEq, passesEq,
    reaches, exact.1 ⟨outcome, ok_of_toOption isOutcome⟩⟩

/-- Fixing may turn a source that can be checked into one that cannot: the fix may take away the
comment that named fragments, so that a later comment names them; it may put a line that was a
comment of its own in front of a closing tag; and it may bare an element that reads as the beginning
of a generic function. -/
theorem lintable_not_fixable :
    ((∃ reports, lint .unset .javascript "x = <>\x7b/* @jsx h */\x7d</>; /* @jsx 9 */".toList
        = .ok reports)
      ∧ ¬ ∃ outcome, fix .unset .javascript
        "x = <>\x7b/* @jsx h */\x7d</>; /* @jsx 9 */".toList = .ok outcome)
    ∧ ((∃ reports, lint .unset .javascript "<p><><!-- x\n</></p>".toList = .ok reports)
      ∧ ¬ ∃ outcome, fix .unset .javascript "<p><><!-- x\n</></p>".toList = .ok outcome)
    ∧ (∃ reports, lint .unset .tsx "a = <><b extends=\"x\"/></>".toList = .ok reports)
      ∧ ¬ ∃ outcome, fix .unset .tsx "a = <><b extends=\"x\"/></>".toList = .ok outcome := by
  have lintable : ∀ dialect source, (lint .unset dialect source).toOption.isSome = true →
      ∃ reports, lint .unset dialect source = .ok reports := by
    intro dialect source isLintable
    obtain ⟨reports, found⟩ := Option.isSome_iff_exists.1 isLintable
    exact ⟨reports, ok_of_toOption found⟩
  have unfixable : ∀ dialect source, (fix .unset dialect source).toOption.isSome = false →
      ¬ ∃ outcome, fix .unset dialect source = .ok outcome := by
    rintro dialect source isUnfixable ⟨outcome, fixed⟩
    rw [fixed] at isUnfixable
    cases isUnfixable
  refine ⟨⟨lintable _ _ ?_, unfixable _ _ ?_⟩, ⟨lintable _ _ ?_, unfixable _ _ ?_⟩,
    lintable _ _ ?_, unfixable _ _ ?_⟩ <;> decide +kernel

end FragmentLint
