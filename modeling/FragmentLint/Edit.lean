import FragmentLint.Span
import FragmentLint.StableSort
import FragmentLint.Text

/-!
Contract: replacements in a text, and applying a set of them at once.

Edits are taken in source order. One that begins at or before the end of the edit applied last is
left out, so that two edits which share a byte or an end never both apply; whoever asked for it may
try again on the new text. The result is `none` when an edit that is taken does not delimit whole
characters of the text.
-/

namespace FragmentLint

/-- Replacement of a range of a text. -/
structure Edit where
  range : Span
  replacement : Text
deriving DecidableEq, Repr, Inhabited

namespace Edit

/-- The order in which edits are taken: by the start of their ranges, then by the end. -/
def before (left right : Edit) : Bool :=
  left.range.start < right.range.start
    || (left.range.start == right.range.start && left.range.stop ≤ right.range.stop)

/-- The edits that begin strictly after the end of the one taken before them, if there is one. -/
def selectAfter : Option Nat → List Edit → List Edit
  | _, [] => []
  | none, edit :: rest => edit :: selectAfter (some edit.range.stop) rest
  | some taken, edit :: rest =>
    if edit.range.start ≤ taken then selectAfter (some taken) rest
    else edit :: selectAfter (some edit.range.stop) rest

/-- The edits of a list that are applied together, in the order in which they are applied. -/
def select (edits : List Edit) : List Edit :=
  selectAfter none (StableSort.sort before edits)

/-- The text from byte `copied` on, with the given edits carried out one after the other. -/
def spliceFrom (source : Text) : Nat → List Edit → Option Text
  | copied, [] => Text.dropBytes? source copied
  | copied, edit :: rest => do
    let kept ← Text.slice? source copied edit.range.start
    let tail ← spliceFrom source edit.range.stop rest
    return kept ++ edit.replacement ++ tail

def applyAll (source : Text) (edits : List Edit) : Option Text :=
  spliceFrom source 0 (select edits)

@[simp] theorem applyAll_nil (source : Text) : applyAll source [] = some source := by
  simp [applyAll, select, selectAfter, StableSort.sort, spliceFrom, Text.dropBytes?]

theorem before_total (left right : Edit) :
    before left right = true ∨ before right left = true := by
  simp only [before, Bool.or_eq_true, Bool.and_eq_true, decide_eq_true_eq, beq_iff_eq]
  omega

theorem before_trans (first second third : Edit) (left : before first second = true)
    (right : before second third = true) : before first third = true := by
  simp only [before, Bool.or_eq_true, Bool.and_eq_true, decide_eq_true_eq, beq_iff_eq] at *
  omega

end Edit

end FragmentLint
