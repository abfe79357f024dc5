import FragmentLint.Markup.Lowering
import FragmentLint.Rule.Verdict
import FragmentLint.Settings.Decode

/-!
Contract: checking a source text, and mending what can be mended.

Owns: the errors of a check, the reports on a tree and on a source, and the passes that apply fixes
until none is left.
-/

namespace FragmentLint

/-- Why a source cannot be checked. -/
inductive LintError where
  /-- The source is not well formed; its syntax goes wrong at a byte offset. -/
  | malformedSource (offset : Nat)
  /-- The parser gave up. -/
  | noTree
  | invalidPragma (error : InvalidPragma)
  /-- A node of a tree does not delimit whole characters of the source. -/
  | badSlice (slice : BadSlice)
deriving Repr

namespace LintError

def message : LintError → String
  | malformedSource offset => "syntax error at byte offset " ++ toString offset
  | noTree => "parser produced no tree"
  | invalidPragma error => error.message
  | badSlice _ => "a node lies outside its source"

end LintError

namespace Tree

/-- The tree of a source that can be read without an error. -/
def ofSource [SyntaxParser] (dialect : Dialect) (source : Text) : Except LintError Tree :=
  match SyntaxParser.parse? dialect source with
  | none => .error .noTree
  | some root =>
    if root.hasError then .error (.malformedSource root.errorOffset)
    else (Lowering.lower source root).mapError .badSlice

def reportsAt (tree : Tree) (pragmas : Pragmas) (id : Nat) : Except BadSlice (List Report) :=
  match tree.site? id with
  | some site =>
    match site.kind with
    | .element _ => tree.onElement pragmas site
    | .fragment _ => tree.onFragment pragmas site
    | _ => .ok []
  | none => .ok []

/-- The reports on all elements and fragments of a tree, in the order in which these start. -/
def reports (tree : Tree) (pragmas : Pragmas) : Except BadSlice (List Report) := do
  let found ← tree.elements.mapM (tree.reportsAt pragmas)
  return found.flatten

def lint (tree : Tree) (settings : Settings) : Except LintError (List Report) :=
  match Pragmas.resolve tree.comments settings with
  | .error error => .error (.invalidPragma error)
  | .ok pragmas => (tree.reports pragmas).mapError .badSlice

end Tree

section Parser

variable [SyntaxParser]

def lint (settings : Settings) (dialect : Dialect) (source : Text) :
    Except LintError (List Report) := do
  let tree ← Tree.ofSource dialect source
  tree.lint settings

/-- What is left of a source after its fixes. -/
structure FixOutcome where
  output : Text
  /-- The number of times that fixes were applied. -/
  passes : Nat
  /-- The reports on the output. -/
  remaining : List Report
deriving Repr

def FixOutcome.changed (outcome : FixOutcome) : Bool := 0 < outcome.passes

/-- The number of times that fixes are applied to a source at most. -/
def maxPasses : Nat := 10

def fixes (reports : List Report) : List Edit := reports.filterMap (·.fix)

/-- Applies fixes to a source on which `passes` passes were made already, `left` more times at
most. -/
def fixFrom (settings : Settings) (dialect : Dialect) (passes : Nat) (source : Text) :
    (left : Nat) → Except LintError FixOutcome
  | 0 => do
    let reports ← lint settings dialect source
    return ⟨source, passes, reports⟩
  | left + 1 => do
    let reports ← lint settings dialect source
    if (fixes reports).isEmpty then return ⟨source, passes, reports⟩
    else
      match Edit.applyAll source (fixes reports) with
      | some mended => fixFrom settings dialect (passes + 1) mended left
      | none => .error (.badSlice ⟨⟨0, Text.bytes source⟩⟩)

/-- Applies fixes to a source until none is left or the most passes have been made. -/
def fix (settings : Settings) (dialect : Dialect) (source : Text) : Except LintError FixOutcome :=
  fixFrom settings dialect 0 source maxPasses

end Parser

end FragmentLint
