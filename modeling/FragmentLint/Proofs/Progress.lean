import FragmentLint.Proofs.Fix
import FragmentLint.Proofs.Markup.Children

/-!
Contract: every pass of fixes makes the text shorter.

A fix saves two bytes at least: the tags of a fragment take five bytes or more, a tag that closes
itself three or more, and an empty fragment takes the place of one that has a pair of braces
besides. The size of the text is therefore a measure of the passes that are still to come, and the
bound on their number is not what ends them. Main statement: `fix_shortens`.

Does not own: what the passes amount to under the bound.
-/

namespace FragmentLint

variable {settings : Settings} {dialect : Dialect} {source : Text}

/-! ## One fix -/

/-- A placed fragment in shorthand around a pair of braces takes seven bytes at least. -/
theorem Outline.Placed.size_of_vacant {outline : Outline} {tags : Tags} {only : Outline}
    (placed : outline.Placed source) (tagsEq : outline.kind.tags? = some tags)
    (childrenEq : outline.children = [only]) (isContainer : only.kind = .container) :
    outline.span.start + 7 ≤ outline.span.stop := by
  have holds := placed.holds tagsEq
  have isChild : only ∈ outline.children := by
    rw [childrenEq]
    exact List.mem_singleton_self only
  have size := (placed.children only isChild).size_of_container isContainer
  have tiled := holds.tiled
  rw [childrenEq] at tiled
  obtain ⟨startEq, stopEq⟩ := tiled
  have stops : only.span.stop = tags.inner.stop := stopEq
  rcases holds.delimit.inner_cases with ⟨nothing, -⟩ | ⟨first, -, last⟩
  · -- A tag that closes itself has no room for the braces.
    rw [nothing] at startEq stops
    simp only at startEq stops
    omega
  · omega

/-- The edit that takes a placed node away saves two bytes. -/
theorem Tree.saves_of_removal {tree : Tree} {pragmas : Pragmas} {entry : Entry} {edit : Edit}
    (placed : entry.outline.Placed tree.source)
    (removed : tree.removal pragmas entry.site = .ok (some edit)) : edit.Saves 2 := by
  unfold Edit.Saves
  obtain ⟨-, ⟨vacant, rfl⟩ | ⟨-, tags, inner, tagsEq, cut, rfl⟩⟩ := removal_eq_some_iff.1 removed
  · obtain ⟨tags, only, kindEq, childrenEq, isVacant⟩ := Site.isVacant_iff.1 vacant
    obtain ⟨below, others, belowEq, rfl, none⟩ := List.map_eq_cons_iff.1 childrenEq
    obtain rfl := List.map_eq_nil_iff.1 none
    have tagsEq : entry.outline.kind.tags? = some tags := congrArg NodeKind.tags? kindEq
    have isContainer : below.kind = .container := by
      simp only [Child.isVacant, Outline.child, Bool.and_eq_true, beq_iff_eq] at isVacant
      exact isVacant.1
    have size := placed.size_of_vacant tagsEq belowEq isContainer
    have written : Text.bytes "<></>".toList = 5 := by decide
    show entry.outline.span.start + Text.bytes "<></>".toList + 2 ≤ entry.outline.span.stop
    omega
  · have ownTags : entry.outline.kind.tags? = some tags := tagsEq
    have stopEq := Span.Delimits.stop_eq cut
    have trimmed := Text.bytes_trimLines_le inner
    show entry.outline.span.start + Text.bytes (Text.trimLines inner) + 2 ≤ entry.outline.span.stop
    rcases (placed.holds ownTags).delimit.inner_cases with ⟨nothing, size⟩ | ⟨first, -, last⟩
    · rw [nothing] at stopEq
      simp only at stopEq
      omega
    · omega

section Parser

variable [SyntaxParser]

/-- What passes lead to that are made, after the first `passes` of them, for as long as there is
something to fix: the last text with its reports, or why a text on the way cannot be checked. -/
inductive Exhausts (settings : Settings) (dialect : Dialect) :
    Nat → Text → Except LintError FixOutcome → Prop where
  | fails {passes : Nat} {text : Text} {reason : LintError}
      (failed : lint settings dialect text = .error reason) :
      Exhausts settings dialect passes text (.error reason)
  | ends {passes : Nat} {text : Text} {reports : List Report}
      (checked : lint settings dialect text = .ok reports) (done : fixes reports = []) :
      Exhausts settings dialect passes text (.ok ⟨text, passes, reports⟩)
  | again {passes : Nat} {text mended : Text} {reports : List Report}
      {answer : Except LintError FixOutcome}
      (checked : lint settings dialect text = .ok reports) (goesOn : fixes reports ≠ [])
      (applied : Edit.applyAll text (fixes reports) = some mended)
      (rest : Exhausts settings dialect (passes + 1) mended answer) :
      Exhausts settings dialect passes text answer

variable [LawfulSyntaxParser]

/-- Every fix that is reported saves two bytes. -/
theorem saves_of_lint {reports : List Report} (checked : lint settings dialect source = .ok reports)
    {report : Report} (member : report ∈ reports) {edit : Edit} (fixed : report.fix = some edit) :
    edit.Saves 2 := by
  obtain ⟨tree, pragmas, accepted, -, found⟩ := lint_eq_ok_iff.1 checked
  obtain ⟨all, records⟩ := Tree.exists_records accepted
  obtain ⟨id, -, reportsOn⟩ := Tree.exists_reportsOn found report member
  obtain ⟨site, isSite, -, -, removed⟩ := reportsOn.exists_site
  rw [records.lists.site?_eq_map_entries] at isSite
  obtain ⟨entry, listed, rfl⟩ := Option.map_eq_some_iff.1 isSite
  rw [fixed] at removed
  exact Tree.saves_of_removal (records.placed entry (List.mem_of_getElem? listed)) removed

/-! ## One pass, and several -/

/-- A pass saves two bytes for each fix that it applies. -/
theorem bytes_of_pass {reports : List Report} {mended : Text}
    (checked : lint settings dialect source = .ok reports)
    (applied : Edit.applyAll source (fixes reports) = some mended) :
    Text.bytes mended + 2 * (Edit.select (fixes reports)).length ≤ Text.bytes source := by
  apply Edit.bytes_applyAll_le applied
  intro edit member
  obtain ⟨report, isReport, fixed⟩ := List.mem_filterMap.1 member
  exact saves_of_lint checked isReport fixed

/-- A pass that has something to fix makes the text shorter by two bytes at least. -/
theorem bytes_of_pass_of_ne_nil {reports : List Report} {mended : Text}
    (checked : lint settings dialect source = .ok reports) (left : fixes reports ≠ [])
    (applied : Edit.applyAll source (fixes reports) = some mended) :
    Text.bytes mended + 2 ≤ Text.bytes source := by
  have shorter := bytes_of_pass checked applied
  have some := List.length_pos_iff.2 (Edit.select_ne_nil left)
  omega

/-- Each pass on the way from a source to a text made it shorter by two bytes at least. -/
theorem bytes_of_reaches {passes : Nat} {text : Text}
    (reaches : Reaches settings dialect passes source text) :
    Text.bytes text + 2 * passes ≤ Text.bytes source := by
  induction reaches with
  | here => omega
  | pass checked left applied _ inductionHypothesis =>
    have shorter := bytes_of_pass_of_ne_nil checked left applied
    omega

/-! ## Passes without a bound -/

/-- A bound of half as many passes as there are bytes does not end them. -/
theorem exhausts_fixFrom (source : Text) (passes left : Nat)
    (enough : Text.bytes source / 2 ≤ left) :
    Exhausts settings dialect passes source (fixFrom settings dialect passes source left) := by
  induction left generalizing passes source with
  | zero =>
    cases checked : lint settings dialect source with
    | error reason =>
      rw [fixFrom_eq_error_of_lint passes 0 checked]
      exact .fails checked
    | ok reports =>
      have none : fixes reports = [] := by
        by_contra some
        obtain ⟨mended, applied⟩ := exists_pass checked
        have shorter := bytes_of_pass_of_ne_nil checked some applied
        omega
      rw [fixFrom, checked]
      exact .ends checked none
  | succ left inductionHypothesis =>
    cases checked : lint settings dialect source with
    | error reason =>
      rw [fixFrom_eq_error_of_lint passes (left + 1) checked]
      exact .fails checked
    | ok reports =>
      obtain ⟨mended, applied⟩ := exists_pass checked
      rw [fixFrom_eq_of_lint passes left checked, applied]
      by_cases none : fixes reports = []
      · rw [if_pos none]
        exact .ends checked none
      · rw [if_neg none]
        have shorter := bytes_of_pass_of_ne_nil checked none applied
        exact .again checked none applied (inductionHypothesis mended (passes + 1) (by omega))

/-- Passes without a bound have one answer only, and a bound of half as many passes as there are
bytes leads to it. -/
theorem Exhausts.fixFrom_eq {passes left : Nat} {answer : Except LintError FixOutcome}
    (exhausts : Exhausts settings dialect passes source answer)
    (enough : Text.bytes source / 2 ≤ left) :
    fixFrom settings dialect passes source left = answer := by
  induction exhausts generalizing left with
  | @fails passes text reason failed => exact fixFrom_eq_error_of_lint passes left failed
  | @ends passes text reports checked done =>
    cases left with
    | zero =>
      rw [fixFrom, checked]
      rfl
    | succ left => rw [fixFrom_eq_of_lint passes left checked, if_pos done]
  | @again passes text mended reports answer checked goesOn applied _ inductionHypothesis =>
    have shorter := bytes_of_pass_of_ne_nil checked goesOn applied
    cases left with
    | zero => omega
    | succ left =>
      rw [fixFrom_eq_of_lint passes left checked, if_neg goesOn, applied]
      apply inductionHypothesis
      omega

/-- A fix has changed its source if and only if it made a pass. -/
theorem changed_iff_of_fix {outcome : FixOutcome}
    (fixed : fix settings dialect source = .ok outcome) :
    outcome.changed = true ↔ outcome.output ≠ source := by
  obtain ⟨made, -, text, reaches, ⟨reports, -, -, answered⟩ | ⟨reason, -, answered⟩⟩ :=
    @exists_end_of_fixFrom settings dialect _ _ source 0 maxPasses
  · rw [fix, answered, Nat.zero_add] at fixed
    obtain rfl := Except.ok.inj fixed
    simp only [FixOutcome.changed, decide_eq_true_eq]
    constructor
    · rintro some rfl
      have shorter := bytes_of_reaches reaches
      omega
    · intro different
      by_contra none
      obtain rfl : made = 0 := by omega
      cases reaches
      exact different rfl
  · rw [fix, answered] at fixed
    cases fixed

/-- Progress of fixing. Every fix that is reported on a source puts a text in the place of its range
that is at least two bytes shorter. If there is any fix, the pass applies one, and saves two bytes
for each that it applies; so does every later pass. Passes without a bound come to an answer, and to
one only, the one that any bound of half as many passes as the source has bytes leads to. A fix says
that it changed the source if and only if its output is another text. -/
theorem fix_shortens {reports : List Report}
    (checked : lint settings dialect source = .ok reports) :
    (∀ report ∈ reports, ∀ edit, report.fix = some edit →
        edit.range.start + Text.bytes edit.replacement + 2 ≤ edit.range.stop)
    ∧ (fixes reports ≠ [] → Edit.select (fixes reports) ≠ [] ∧ ∃ mended,
        Edit.applyAll source (fixes reports) = some mended
          ∧ Text.bytes mended + 2 * (Edit.select (fixes reports)).length ≤ Text.bytes source)
    ∧ (∀ passes text, Reaches settings dialect passes source text →
        Text.bytes text + 2 * passes ≤ Text.bytes source)
    ∧ (∀ left, Text.bytes source / 2 ≤ left → ∀ answer,
        Exhausts settings dialect 0 source answer ↔ fixFrom settings dialect 0 source left = answer)
    ∧ ∀ outcome, fix settings dialect source = .ok outcome →
        (outcome.changed = true ↔ outcome.output ≠ source) := by
  refine ⟨?_, ?_, ?_, ?_, ?_⟩
  · intro report member edit fixed
    exact saves_of_lint checked member fixed
  · intro left
    obtain ⟨mended, applied⟩ := exists_pass checked
    exact ⟨Edit.select_ne_nil left, mended, applied, bytes_of_pass checked applied⟩
  · intro passes text reaches
    exact bytes_of_reaches reaches
  · intro left enough answer
    constructor
    · intro exhausts
      exact exhausts.fixFrom_eq enough
    · rintro rfl
      exact exhausts_fixFrom source 0 left enough
  · intro outcome fixed
    exact changed_iff_of_fix fixed

end Parser

open Scripts

/-- Of two fragments the outer one goes first, and then the inner one loses its braces, which saves
no more than two bytes. -/
theorem fix_shortens_to_empty :
    ∃ reports edit outcome, lint .unset .javascript "a = <><>\x7b\x7d</></>".toList = .ok reports
      ∧ (∃ report ∈ reports, report.fix = some edit)
      ∧ edit.range.start + Text.bytes edit.replacement + 2 = edit.range.stop
      ∧ (Edit.select (fixes reports)).length = 1
      ∧ fix .unset .javascript "a = <><>\x7b\x7d</></>".toList = .ok outcome
      ∧ outcome.output = "a = <></>".toList ∧ outcome.passes = 2 ∧ outcome.changed = true
      ∧ Exhausts .unset .javascript 0 "a = <><>\x7b\x7d</></>".toList (.ok outcome) := by
  have linted : (lint .unset .javascript "a = <><>\x7b\x7d</></>".toList).toOption
      = some [⟨⟨4, 16⟩, .needsMoreChildren, some ⟨⟨4, 16⟩, "<>\x7b\x7d</>".toList⟩⟩,
        ⟨⟨6, 13⟩, .needsMoreChildren, some ⟨⟨6, 13⟩, "<></>".toList⟩⟩] := by
    decide +kernel
  have fixed : (fix .unset .javascript "a = <><>\x7b\x7d</></>".toList).toOption.map
      (fun outcome => (outcome.output, outcome.passes)) = some ("a = <></>".toList, 2) := by
    decide +kernel
  obtain ⟨outcome, isOutcome, parts⟩ := Option.map_eq_some_iff.1 fixed
  obtain ⟨outputEq, passesEq⟩ := Prod.mk.inj parts
  obtain ⟨-, -, -, exhausted, changed⟩ := fix_shortens (ok_of_toOption linted)
  have enough : Text.bytes "a = <><>\x7b\x7d</></>".toList / 2 ≤ maxPasses := by decide
  refine ⟨_, ⟨⟨6, 13⟩, "<></>".toList⟩, outcome, ok_of_toOption linted,
    ⟨_, List.mem_cons_of_mem _ (List.mem_singleton_self _), rfl⟩, by decide, by decide,
    ok_of_toOption isOutcome, outputEq, passesEq, ?_, ?_⟩
  · apply (changed outcome (ok_of_toOption isOutcome)).2
    rw [outputEq]
    decide
  · exact (exhausted maxPasses enough _).2 (ok_of_toOption isOutcome)

end FragmentLint
