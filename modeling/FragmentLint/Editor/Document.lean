import FragmentLint.Editor.Position
import FragmentLint.File.Uri
import FragmentLint.Lint

/-!
Contract: documents, and what is shown about them.

A report is shown as a warning over its range. A document that cannot be checked has one error
instead. Spans that end inside a character cannot be shown: then there is no answer to what is to be
shown.

Owns: documents, diagnostics, and the diagnostics of reports and errors.
Does not own: which documents are open.
-/

namespace FragmentLint

/-- How grave a diagnostic is. -/
inductive Severity where
  | error
  | warning
deriving DecidableEq, Repr, Inhabited

/-- Something to show in a document. -/
structure Diagnostic where
  range : Range
  severity : Severity
  code : Option Reason
  message : String
deriving DecidableEq, Repr, Inhabited

/-- A text with a name, and the reports of its last check. -/
structure Document where
  uri : Uri
  text : Text
  version : Int
  dialect : Dialect
  reports : List Report
deriving DecidableEq, Repr, Inhabited

namespace Document

def unchecked (uri : Uri) (text : Text) (version : Int) (dialect : Dialect) : Document :=
  ⟨uri, text, version, dialect, []⟩

def positionOf? (document : Document) (offset : Nat) : Option Position :=
  Position.ofOffset? document.text offset

def offsetOf (document : Document) (position : Position) : Nat := position.offsetIn document.text

def rangeOf? (document : Document) (span : Span) : Option Range := Range.ofSpan? document.text span

def spanOf (document : Document) (range : Range) : Span := range.spanIn document.text

def warning? (document : Document) (report : Report) : Option Diagnostic := do
  let range ← document.rangeOf? report.range
  return ⟨range, .warning, some report.reason,
    report.reason.message ++ " (" ++ ruleId ++ ")"⟩

def diagnostics? (document : Document) : Option (List Diagnostic) :=
  document.reports.mapM document.warning?

def errorAt (position : Position) (message : String) : Diagnostic :=
  ⟨⟨position, position⟩, .error, none, message⟩

/-- What is shown about settings that are refused. -/
def refusal (error : SettingsError) : Diagnostic := errorAt .origin error.message

/-- What is shown about a document that cannot be checked: an error where its syntax goes wrong, or
at its beginning. -/
def failure? (document : Document) (error : LintError) : Option Diagnostic :=
  match error with
  | .malformedSource offset =>
    (document.positionOf? offset).map fun position => errorAt position error.message
  | _ => some (errorAt .origin error.message)

def withReports (document : Document) (reports : List Report) : Document :=
  { document with reports }

/-- Checks a document. Answers it with the reports found, and what is to be shown. -/
def check [SyntaxParser] (settings : Except SettingsError Settings) (document : Document) :
    Document × Option (List Diagnostic) :=
  match settings with
  | .error error => (document.withReports [], some [refusal error])
  | .ok settings =>
    match lint settings document.dialect document.text with
    | .ok reports =>
      let checked := document.withReports reports
      (checked, checked.diagnostics?)
    | .error error => (document.withReports [], (document.failure? error).map ([·]))

theorem check_eq_withReports [SyntaxParser] (settings : Except SettingsError Settings)
    (document : Document) :
    ∃ reports, (document.check settings).1 = document.withReports reports := by
  unfold check
  split
  · exact ⟨[], rfl⟩
  · split
    · exact ⟨_, rfl⟩
    · exact ⟨[], rfl⟩

end Document

end FragmentLint
