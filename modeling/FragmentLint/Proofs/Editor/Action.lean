import FragmentLint.Editor.Action
import FragmentLint.Proofs.Edit
import FragmentLint.Proofs.Editor.Document
import FragmentLint.Proofs.Editor.Position

/-!
Contract: the actions that a checked document has.

Quick fixes come from reports that have a fix (`mem_of_mem_fixesTouching`). Main statements: if the
reports of a document are those of a check, every range has its quick fixes (`exists_quickFixes?`),
and the fix of a whole document replaces all of its text (`rewrites_fixAll`).

Does not own: when the fix of a whole document is offered.
-/

namespace FragmentLint

namespace Document

variable {document : Document}

theorem mem_of_mem_fixesTouching {wanted : Span} {seen : List Span} {reports : List Report}
    {report : Report} {fix : Edit} (member : (report, fix) ∈ fixesTouching wanted seen reports) :
    report ∈ reports ∧ report.fix = some fix := by
  induction reports generalizing seen with
  | nil => cases member
  | cons head rest inductionHypothesis =>
    have later : ∀ {seen : List Span}, (report, fix) ∈ fixesTouching wanted seen rest →
        report ∈ head :: rest ∧ report.fix = some fix := by
      intro seen inRest
      obtain ⟨isReport, fixed⟩ := inductionHypothesis inRest
      exact ⟨List.mem_cons_of_mem _ isReport, fixed⟩
    unfold fixesTouching at member
    cases own : head.fix with
    | none =>
      rw [own] at member
      exact later member
    | some edit =>
      simp only [own] at member
      split at member
      · exact later member
      · rcases List.mem_cons.1 member with same | inRest
        · cases same
          exact ⟨List.mem_cons_self, own⟩
        · exact later inRest

/-- A fix of a report on a piece of the text can be offered if all reports are on such pieces. -/
theorem exists_quickFix? {report : Report} {fix : Edit}
    (delimit : ∀ shown ∈ document.reports, ∃ piece, shown.range.Delimits document.text piece)
    (member : report ∈ document.reports) (sameRange : fix.range = report.range) :
    ∃ action, document.quickFix? report fix = some action := by
  obtain ⟨piece, delimits⟩ := delimit report member
  rw [← sameRange] at delimits
  obtain ⟨range, found⟩ := Range.exists_ofSpan? delimits
  have known : document.rangeOf? fix.range = some range := found
  have showable : ∀ other ∈ document.reports.filter (·.range == report.range),
      ∃ diagnostic, document.warning? other = some diagnostic := by
    intro other isOther
    obtain ⟨piece, delimits⟩ := delimit other (List.mem_of_mem_filter isOther)
    exact exists_warning? delimits
  obtain ⟨shown, isShown, -⟩ := exists_mapM_eq_some showable
  unfold quickFix?
  rw [known, isShown]
  exact ⟨_, rfl⟩

section Parser

variable [SyntaxParser] [LawfulSyntaxParser]

/-- Every range of a document with the reports of a check has its quick fixes. -/
theorem exists_quickFixes? {settings : Settings} {dialect : Dialect}
    (checked : lint settings dialect document.text = .ok document.reports) (range : Range) :
    ∃ actions, document.quickFixes? range = some actions := by
  unfold quickFixes?
  have offered : ∀ item ∈ fixesTouching (document.spanOf range) [] document.reports,
      ∃ action, document.quickFix? item.1 item.2 = some action := by
    rintro ⟨report, fix⟩ member
    obtain ⟨isReport, fixed⟩ := mem_of_mem_fixesTouching member
    apply exists_quickFix? _ isReport
    · exact (report_delimits checked isReport).2 fix fixed
    · intro shown isShown
      exact (report_delimits checked isShown).1
  obtain ⟨actions, found, -⟩ := exists_mapM_eq_some offered
  exact ⟨actions, found⟩

/-- A document that has the reports that it ought to have, has its quick fixes for every range. -/
theorem Shows.exists_quickFixes? {settings : Except SettingsError Settings}
    {shown : List Diagnostic} (shows : document.Shows settings shown) (range : Range) :
    ∃ actions, document.quickFixes? range = some actions := by
  have noneToFix (noReports : document.reports = []) :
      ∃ actions, document.quickFixes? range = some actions := by
    unfold quickFixes?
    rw [noReports]
    exact ⟨[], rfl⟩
  cases shows with
  | warnings settingsEq checked each => exact Document.exists_quickFixes? checked range
  | refused settingsEq noReports => exact noneToFix noReports
  | failed settingsEq failed noReports => exact noneToFix noReports

end Parser

end Document

/-- Whether all that an action does is to put a text in the place of the whole text of a
document. -/
structure Action.Rewrites (document : Document) (output : Text) (action : Action) : Prop where
  kind : action.kind = .fixAll
  uri : action.uri = document.uri
  /-- The range leads back to the first and the last byte. -/
  whole : document.spanOf action.range = ⟨0, Text.bytes document.text⟩
  applied : Edit.applyAll document.text [⟨document.spanOf action.range, action.replacement⟩]
    = some output

theorem Document.rewrites_fixAll (document : Document) (output : Text) :
    (document.fixAll output).Rewrites document output := by
  have start : Position.origin.offsetIn document.text = 0 :=
    Position.offsetIn_after [] document.text
  have stop : (Position.after document.text).offsetIn document.text
      = Text.bytes document.text := by
    have found := Position.offsetIn_after document.text []
    rwa [List.append_nil] at found
  have whole : document.spanOf (document.fixAll output).range
      = ⟨0, Text.bytes document.text⟩ := by
    show Span.mk (Position.origin.offsetIn document.text)
      ((Position.after document.text).offsetIn document.text) = _
    rw [start, stop]
  refine ⟨rfl, rfl, whole, ?_⟩
  rw [whole]
  have replaced := @Edit.applyAll_singleton [] document.text []
    ⟨⟨0, Text.bytes document.text⟩, output⟩ rfl (Nat.zero_add _).symm
  rw [List.nil_append, List.append_nil, List.nil_append, List.append_nil] at replaced
  exact replaced

end FragmentLint
