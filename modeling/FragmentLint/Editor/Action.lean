import FragmentLint.Editor.Document

/-!
Contract: the changes to a document that are offered to whoever edits it.

A quick fix takes one fragment away and names everything that is shown about it. The fix of the
whole document replaces its text by the text without any fragment that can be taken away.

Owns: actions, and which quick fixes a range has.
Does not own: when the fix of a whole document is offered.
-/

namespace FragmentLint

/-- What an action does. -/
inductive ActionKind where
  | quickFix
  | fixAll
deriving DecidableEq, Repr, Inhabited

namespace ActionKind

/-- The name of a kind, from the general to the particular. -/
def id : ActionKind → String
  | quickFix => "quickfix"
  | fixAll => "source.fixAll"

/-- What the kind is called where actions are offered. -/
def title : ActionKind → String
  | quickFix => "Remove redundant fragment"
  | fixAll => "Remove all redundant fragments"

end ActionKind

/-- A change of a document that is offered. -/
structure Action where
  kind : ActionKind
  uri : Uri
  /-- The range of the document to replace. -/
  range : Range
  replacement : Text
  /-- What is shown about the fragment that a quick fix takes away. -/
  diagnostics : List Diagnostic
deriving DecidableEq, Repr, Inhabited

namespace Document

def quickFix? (document : Document) (report : Report) (fix : Edit) : Option Action := do
  let range ← document.rangeOf? fix.range
  let shown ← (document.reports.filter (·.range == report.range)).mapM document.warning?
  return ⟨.quickFix, document.uri, range, fix.replacement, shown⟩

/-- The edits of reports that touch a span, the first one for each range; `seen` are the ranges that
had one already. -/
def fixesTouching (wanted : Span) (seen : List Span) : List Report → List (Report × Edit)
  | [] => []
  | report :: rest =>
    match report.fix with
    | none => fixesTouching wanted seen rest
    | some fix =>
      if !report.range.touches wanted || seen.contains fix.range then
        fixesTouching wanted seen rest
      else (report, fix) :: fixesTouching wanted (fix.range :: seen) rest

/-- The quick fixes for the reports that touch a range. -/
def quickFixes? (document : Document) (range : Range) : Option (List Action) :=
  (fixesTouching (document.spanOf range) [] document.reports).mapM fun (report, fix) =>
    document.quickFix? report fix

def fixAll (document : Document) (fixed : Text) : Action :=
  ⟨.fixAll, document.uri, ⟨.origin, .after document.text⟩, fixed, []⟩

end Document

end FragmentLint
