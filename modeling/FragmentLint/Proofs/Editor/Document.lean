import FragmentLint.Proofs.Editor.RoundTrip
import FragmentLint.Proofs.Rule.Removal

/-!
Contract: what a check shows about a document.

Main statement: a check keeps the document but for its reports, and what it shows are these reports,
one by one, or the one reason for which there are none (`exists_shows_check`).
-/

namespace FragmentLint

/-- A span that delimits a piece of a text can be shown. -/
theorem Range.exists_ofSpan? {text piece : Text} {span : Span}
    (delimits : span.Delimits text piece) : ∃ range, Range.ofSpan? text span = some range := by
  obtain ⟨range, found, -⟩ :=
    ofSpan?_of_isBoundary (Text.isBoundary_start delimits) (Text.isBoundary_stop delimits)
  exact ⟨range, found⟩

/-- A traversal in which every step succeeds, succeeds with their results. -/
theorem exists_mapM_eq_some {α β : Type} {f : α → Option β} {items : List α}
    (succeeds : ∀ item ∈ items, ∃ result, f item = some result) :
    ∃ results, items.mapM f = some results
      ∧ List.Forall₂ (fun item result => f item = some result) items results := by
  induction items with
  | nil => exact ⟨[], rfl, .nil⟩
  | cons head rest inductionHypothesis =>
    obtain ⟨first, found⟩ := succeeds head List.mem_cons_self
    obtain ⟨others, foundOthers, each⟩ := inductionHypothesis
      fun item member => succeeds item (List.mem_cons_of_mem _ member)
    refine ⟨first :: others, ?_, .cons found each⟩
    rw [List.mapM_cons, found, foundOthers]
    rfl

namespace Document

variable {document : Document}

/-- A report on a piece of the text can be shown. -/
theorem exists_warning? {report : Report} {piece : Text}
    (delimits : report.range.Delimits document.text piece) :
    ∃ diagnostic, document.warning? report = some diagnostic := by
  obtain ⟨range, found⟩ := Range.exists_ofSpan? delimits
  have known : document.rangeOf? report.range = some range := found
  unfold warning?
  rw [known]
  exact ⟨_, rfl⟩

/-- What makes a document the one that it is: all but its reports. -/
def identity (document : Document) : Uri × Text × Int × Dialect :=
  (document.uri, document.text, document.version, document.dialect)

section Parser

variable [SyntaxParser]

/-- What is to be shown about a document that has the reports it ought to have under some
settings: a warning for each report, or a single error if the settings are refused or the text
cannot be checked. -/
inductive Shows (settings : Except SettingsError Settings) (document : Document) :
    List Diagnostic → Prop where
  | warnings {active : Settings} {shown : List Diagnostic} (settingsEq : settings = .ok active)
      (checked : lint active document.dialect document.text = .ok document.reports)
      (each : List.Forall₂ (fun report diagnostic => document.warning? report = some diagnostic)
        document.reports shown) :
      Shows settings document shown
  | refused {reason : SettingsError} (settingsEq : settings = .error reason)
      (noReports : document.reports = []) :
      Shows settings document [errorAt .origin reason.message]
  | failed {active : Settings} {reason : LintError} {diagnostic : Diagnostic}
      (settingsEq : settings = .ok active)
      (failed : lint active document.dialect document.text = .error reason)
      (noReports : document.reports = []) (shown : document.failure? reason = some diagnostic)
      (isError : diagnostic.severity = .error) :
      Shows settings document [diagnostic]

/-- A check changes nothing about a document but its reports. -/
@[simp] theorem identity_check (settings : Except SettingsError Settings) (document : Document) :
    (document.check settings).1.identity = document.identity := by
  obtain ⟨reports, checked⟩ := check_eq_withReports settings document
  rw [checked]
  rfl

@[simp] theorem uri_check (settings : Except SettingsError Settings) (document : Document) :
    (document.check settings).1.uri = document.uri :=
  congrArg Prod.fst (identity_check settings document)

@[simp] theorem text_check (settings : Except SettingsError Settings) (document : Document) :
    (document.check settings).1.text = document.text :=
  congrArg (·.2.1) (identity_check settings document)

@[simp] theorem version_check (settings : Except SettingsError Settings) (document : Document) :
    (document.check settings).1.version = document.version :=
  congrArg (·.2.2.1) (identity_check settings document)

variable [LawfulSyntaxParser]

/-- The reports of a check can all be shown. -/
theorem exists_diagnostics? {settings : Settings} {dialect : Dialect}
    (checked : lint settings dialect document.text = .ok document.reports) :
    ∃ shown, document.diagnostics? = some shown
      ∧ List.Forall₂ (fun report diagnostic => document.warning? report = some diagnostic)
        document.reports shown := by
  apply exists_mapM_eq_some
  intro report member
  obtain ⟨⟨piece, delimits⟩, -⟩ := report_delimits checked member
  exact exists_warning? delimits

/-- The failure of a check is shown as an error: where the syntax of the text goes wrong, or at its
beginning. -/
theorem exists_failure? {settings : Settings} {dialect : Dialect} {reason : LintError}
    (failed : lint settings dialect document.text = .error reason) :
    ∃ diagnostic, document.failure? reason = some diagnostic ∧ diagnostic.severity = .error := by
  rcases lint_eq_error_iff.1 failed with unread | ⟨tree, invalid, -, -, rfl⟩
  · rcases Tree.ofSource_eq_error_iff.1 unread with ⟨-, rfl⟩ | ⟨root, parsed, -, rfl⟩
    · exact ⟨_, rfl, rfl⟩
    · have boundary := (LawfulSyntaxParser.standsIn parsed).isBoundary_errorOffset
      obtain ⟨position, found, -⟩ := Position.exists_ofOffset? boundary
      have place : document.positionOf? root.errorOffset = some position := found
      refine ⟨errorAt position (LintError.malformedSource root.errorOffset).message, ?_, rfl⟩
      simp only [failure?, place, Option.map_some]
  · exact ⟨_, rfl, rfl⟩

/-- A check shows what is to be shown about the document with the reports that it gives it. -/
theorem exists_shows_check (settings : Except SettingsError Settings) (document : Document) :
    ∃ shown, (document.check settings).2 = some shown
      ∧ (document.check settings).1.Shows settings shown := by
  cases settings with
  | error reason => exact ⟨_, rfl, .refused rfl rfl⟩
  | ok active =>
    unfold check
    cases checked : lint active document.dialect document.text with
    | error reason =>
      obtain ⟨diagnostic, shown, isError⟩ := exists_failure? checked
      simp only [checked, shown, Option.map_some]
      exact ⟨_, rfl, .failed rfl checked rfl shown isError⟩
    | ok reports =>
      have checkedThere : lint active (document.withReports reports).dialect
          (document.withReports reports).text
          = .ok (document.withReports reports).reports := checked
      obtain ⟨shown, isShown, each⟩ := exists_diagnostics? checkedThere
      simp only [checked, isShown]
      exact ⟨_, rfl, .warnings rfl checked each⟩

end Parser

end Document

end FragmentLint
