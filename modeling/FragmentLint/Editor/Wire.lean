import FragmentLint.Editor.Action
import FragmentLint.Json.Value

/-!
Contract: positions, diagnostics and actions in JSON, as the language server protocol has them.

Fields that are absent are left out.
-/

namespace FragmentLint

def diagnosticSource : String := "jsx_lint"

namespace Position

def toJson (position : Position) : Json :=
  .record [("line", .ofNat position.line), ("character", .ofNat position.character)]

end Position

namespace Range

def toJson (range : Range) : Json :=
  .record [("start", range.start.toJson), ("end", range.stop.toJson)]

end Range

namespace Severity

def number : Severity → Nat
  | error => 1
  | warning => 2

end Severity

namespace Diagnostic

def toJson (diagnostic : Diagnostic) : Json :=
  .record ([("range", diagnostic.range.toJson),
      ("severity", .ofNat diagnostic.severity.number),
      ("source", .ofString diagnosticSource),
      ("message", .ofString diagnostic.message)]
    ++ (diagnostic.code.map fun reason => ("code", Json.ofString reason.id)).toList)

end Diagnostic

namespace Action

/-- The text edits of an action in JSON, under the document that they belong to. -/
def changes (action : Action) : Json :=
  let edit := Json.record
    [("range", action.range.toJson), ("newText", .string action.replacement)]
  .record [("changes", .object [(action.uri.text, .array [edit])])]

def toJson (action : Action) : Json :=
  let general := [("title", Json.ofString action.kind.title), ("kind", .ofString action.kind.id),
    ("edit", action.changes)]
  match action.kind with
  | .quickFix => .record (general ++ [
      ("diagnostics", .array (action.diagnostics.map Diagnostic.toJson)),
      ("isPreferred", .bool true)])
  | .fixAll => .record general

end Action

end FragmentLint
