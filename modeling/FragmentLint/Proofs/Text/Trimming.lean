import FragmentLint.Proofs.Text.Slice
import FragmentLint.Proofs.Text.Solid
import FragmentLint.Rule.Verdict
import Mathlib.Data.Nat.PSub

/-!
Contract: what trimming leaves of a text, said by its longest blank runs, and trimming by offsets.

The offsets between which a text is kept come from the sizes of the blank runs at its two ends. A
text of blanks only is both of these runs at once, so its two offsets may be out of order.

Main statements: the two ends are trimmed without regard to each other (`trimLines_around`), a text
can always be cut at the offsets (`trimByOffsets?_eq_some`), and trimming drops the two longest
blank runs that have a line feed in them and nothing else (`trimLines_by_runs`).

Owns: trimming by offsets.
Does not own: where trimmed text is put.
-/

namespace FragmentLint.Text

/-- Whether a run is the longest blank one of those that stand at one end of a text. -/
structure LongestBlank (Stands : Text → Prop) (run : Text) : Prop where
  stands : Stands run
  blank : isBlank run = true
  longest : ∀ other, Stands other → isBlank other = true → other.length ≤ run.length

/-- What is cut off of a blank run: all of it if there is a line feed in it. -/
def dropped (run : Text) : Text := if '\n' ∈ run then run else []

/-- The part of a text that is left when the blank runs at its ends are measured in bytes and those
with a line feed are cut off. There is none if a size would be below zero, or if a slice begins
behind its end or at an offset that is no boundary. -/
def trimByOffsets? (text : Text) : Option Text := do
  let leading ← Nat.psub (bytes text) (bytes (trimLeft text))
  let trailing ← Nat.psub (bytes text) (bytes (trimRight text))
  let front ← slice? text 0 leading
  let start := if front.contains '\n' then leading else 0
  let behind ← Nat.psub (bytes text) trailing
  let back ← dropBytes? text behind
  let stop := if back.contains '\n' then behind else bytes text
  if stop ≤ start then some [] else slice? text start stop

/-! ## Blank runs at the ends -/

theorem longestBlank_lead (text : Text) : LongestBlank (· <+: text) (lead text) := by
  refine ⟨⟨trimLeft text, lead_append_trimLeft text⟩, isBlank_lead text, ?_⟩
  rintro other ⟨rest, rfl⟩ blank
  rw [lead_append_of_isBlank blank, List.length_append]
  exact Nat.le_add_right _ _

theorem longestBlank_trail (text : Text) : LongestBlank (· <:+ text) (trail text) := by
  refine ⟨⟨trimRight text, trimRight_append_trail text⟩, isBlank_trail text, ?_⟩
  rintro other ⟨rest, rfl⟩ blank
  rw [trail_append_of_isBlank blank, List.length_append]
  exact Nat.le_add_left _ _

/-- A text with something to see in it is what is between the blank runs at its ends and the two
runs. -/
theorem lead_append_middle_append_trail {text : Text} (visible : isBlank text = false) :
    lead text ++ (trimRight (trimLeft text) ++ trail text) = text := by
  rw [← trail_trimLeft visible, trimRight_append_trail, lead_append_trimLeft]

theorem solid_trimRight_trimLeft {text : Text} (visible : isBlank text = false) :
    Solid (trimRight (trimLeft text)) := by
  have middleVisible : isBlank (trimRight (trimLeft text)) = false := by
    rw [isBlank_trimRight, isBlank_trimLeft, visible]
  have front := lead_append_of_not_isBlank middleVisible (trail (trimLeft text))
  rw [trimRight_append_trail, lead_trimLeft] at front
  refine ⟨?_, front.symm, trail_trimRight _⟩
  intro none
  rw [none] at middleVisible
  cases middleVisible

/-! ## What is kept and what is cut off -/

theorem kept_kept (run : Text) : kept (kept run) = kept run := by
  by_cases lineFeed : '\n' ∈ run
  · rw [kept, kept, if_pos lineFeed, ite_self]
  · have same : kept run = run := if_neg lineFeed
    rw [same, same]

theorem dropped_append_kept (run : Text) : dropped run ++ kept run = run := by
  unfold dropped kept
  split
  · exact List.append_nil run
  · rfl

theorem kept_append_dropped (run : Text) : kept run ++ dropped run = run := by
  unfold dropped kept
  split
  · rfl
  · exact List.append_nil run

theorem trimFront_of_isBlank {run : Text} (blank : isBlank run = true) :
    trimFront run = kept run := by
  unfold trimFront kept
  rw [lead_of_isBlank blank, trimLeft_eq_nil_iff.2 blank]
  simp only [List.contains_iff_mem]

theorem trimBack_of_isBlank {run : Text} (blank : isBlank run = true) :
    trimBack run = kept run := by
  rw [trimBack_eq, trail_of_isBlank blank, trimRight_eq_nil_iff.2 blank, kept]

theorem trimLines_of_isBlank {run : Text} (blank : isBlank run = true) :
    trimLines run = kept run := by
  rw [trimLines, trimFront_of_isBlank blank, trimBack_of_isBlank (isBlank_kept blank), kept_kept]

/-- On either side of a solid piece a text is trimmed without regard to the other side. -/
theorem trimLines_around {middle : Text} (solid : middle.Solid) (left right : Text) :
    trimLines (left ++ (middle ++ right)) = trimFront left ++ (middle ++ trimBack right) := by
  unfold trimLines
  rw [trimFront_append (solid.lead_append right), ← List.append_assoc,
    trimBack_append (solid.trail_append (trimFront left)), List.append_assoc]

theorem trimLines_of_visible {text : Text} (visible : isBlank text = false) :
    trimLines text
      = kept (lead text) ++ (trimRight (trimLeft text) ++ kept (trail text)) := by
  have around := trimLines_around (solid_trimRight_trimLeft visible) (lead text) (trail text)
  rw [lead_append_middle_append_trail visible, trimFront_of_isBlank (isBlank_lead text),
    trimBack_of_isBlank (isBlank_trail text)] at around
  exact around

theorem trimLines_ne_nil_of_visible {text : Text} (visible : isBlank text = false) :
    trimLines text ≠ [] := by
  have nonempty := (solid_trimRight_trimLeft visible).nonempty
  simp [trimLines_of_visible visible, nonempty]

/-- Nothing is left of a text that is something if and only if it is blank over a line end. -/
theorem trimLines_eq_nil_iff {text : Text} (something : text ≠ []) :
    trimLines text = [] ↔ isBlank text = true ∧ '\n' ∈ text := by
  cases blank : isBlank text with
  | true => simp [trimLines_of_isBlank blank, kept, something]
  | false => simp [trimLines_ne_nil_of_visible blank]

/-- What trimming leaves is not trimmed further. -/
theorem trimLines_trimLines (text : Text) : trimLines (trimLines text) = trimLines text := by
  cases blank : isBlank text with
  | true =>
    rw [trimLines_of_isBlank blank, trimLines_of_isBlank (isBlank_kept blank), kept_kept]
  | false =>
    rw [trimLines_of_visible blank, trimLines_around (solid_trimRight_trimLeft blank),
      trimFront_of_isBlank (isBlank_kept (isBlank_lead text)),
      trimBack_of_isBlank (isBlank_kept (isBlank_trail text)), kept_kept, kept_kept]

/-- A text with something to see in it is what trimming leaves of it and what is cut off. -/
theorem dropped_append_trimLines {text : Text} (visible : isBlank text = false) :
    dropped (lead text) ++ (trimLines text ++ dropped (trail text)) = text := by
  calc dropped (lead text) ++ (trimLines text ++ dropped (trail text))
      = (dropped (lead text) ++ kept (lead text))
          ++ (trimRight (trimLeft text) ++ (kept (trail text) ++ dropped (trail text))) := by
        rw [trimLines_of_visible visible]
        simp only [List.append_assoc]
    _ = lead text ++ (trimRight (trimLeft text) ++ trail text) := by
        rw [dropped_append_kept, kept_append_dropped]
    _ = text := lead_append_middle_append_trail visible

/-! ## Offsets -/

/-- The sizes can be subtracted, and the runs that they measure can be cut out. -/
theorem trimByOffsets?_eq (text : Text) :
    trimByOffsets? text
      = (let start := if '\n' ∈ lead text then bytes (lead text) else 0
        let stop := if '\n' ∈ trail text then bytes (trimRight text) else bytes text
        if stop ≤ start then some [] else slice? text start stop) := by
  have byFront : bytes (lead text) + bytes (trimLeft text) = bytes text := by
    rw [← bytes_append, lead_append_trimLeft]
  have byBack : bytes (trimRight text) + bytes (trail text) = bytes text := by
    rw [← bytes_append, trimRight_append_trail]
  have leading : Nat.psub (bytes text) (bytes (trimLeft text)) = some (bytes (lead text)) :=
    Nat.psub_eq_some.2 byFront
  have trailing : Nat.psub (bytes text) (bytes (trimRight text)) = some (bytes (trail text)) :=
    Nat.psub_eq_some.2 ((Nat.add_comm _ _).trans byBack)
  have behind : Nat.psub (bytes text) (bytes (trail text)) = some (bytes (trimRight text)) :=
    Nat.psub_eq_some.2 byBack
  have front : slice? text 0 (bytes (lead text)) = some (lead text) :=
    slice?_eq_some_iff.2 ⟨[], trimLeft text, (lead_append_trimLeft text).symm, rfl,
      (Nat.zero_add _).symm⟩
  have back : dropBytes? text (bytes (trimRight text)) = some (trail text) :=
    dropBytes?_eq_some_iff.2 ⟨trimRight text, trimRight_append_trail text, rfl⟩
  simp only [trimByOffsets?, leading, trailing, front, behind, back, Option.bind_eq_bind,
    Option.bind_some, List.contains_iff_mem]

/-- The front is cut behind what is cut off there. -/
theorem start_eq_bytes_dropped (text : Text) :
    (if '\n' ∈ lead text then bytes (lead text) else 0) = bytes (dropped (lead text)) := by
  unfold dropped
  split
  · rfl
  · rfl

/-- The back is cut in front of what is cut off there. -/
theorem stop_add_bytes_dropped (text : Text) :
    (if '\n' ∈ trail text then bytes (trimRight text) else bytes text)
      + bytes (dropped (trail text)) = bytes text := by
  unfold dropped
  split
  · rw [← bytes_append, trimRight_append_trail]
  · rfl

/-- Trimming by offsets does not fail, and it leaves what trimming run by run leaves. -/
theorem trimByOffsets?_eq_some (text : Text) : trimByOffsets? text = some (trimLines text) := by
  rw [trimByOffsets?_eq]
  cases blank : isBlank text with
  | true =>
    -- Both runs are the whole text: with a line feed in it, it is cut from its end to its front.
    rw [lead_of_isBlank blank, trail_of_isBlank blank, trimRight_eq_nil_iff.2 blank,
      trimLines_of_isBlank blank, kept]
    by_cases lineFeed : '\n' ∈ text
    · simp [lineFeed]
    · by_cases none : text = []
      · simp [none]
      · simp [lineFeed, bytes_eq_zero_iff, none, slice?_whole]
  | false =>
    have parts := dropped_append_trimLines blank
    have positive : bytes (trimLines text) ≠ 0 :=
      mt (bytes_eq_zero_iff _).1 (trimLines_ne_nil_of_visible blank)
    have stopEq : (if '\n' ∈ trail text then bytes (trimRight text) else bytes text)
        = bytes (dropped (lead text)) + bytes (trimLines text) := by
      have sizes := congrArg bytes parts
      rw [bytes_append, bytes_append, ← stop_add_bytes_dropped text, ← Nat.add_assoc] at sizes
      exact (Nat.add_right_cancel sizes).symm
    rw [start_eq_bytes_dropped, stopEq, if_neg (by omega)]
    exact slice?_eq_some_iff.2 ⟨dropped (lead text), dropped (trail text), parts.symm, rfl, rfl⟩

example : trimByOffsets? "\u3000\n<b/>\u00a0".toList = some "<b/>\u00a0".toList := by decide

/-! ## What is left -/

/-- Trimming by offsets gives a result for every text. A text of blanks only is left as it is or
dropped as a whole. Any other text loses the longest blank run at its front and the one at its back,
each of them if there is a line feed in it. What is left is not trimmed further, and it is nothing
exactly where the text between tags is padding. -/
theorem trimLines_by_runs (text : Text) :
    trimByOffsets? text = some (trimLines text)
      ∧ (isBlank text = true → trimLines text = if '\n' ∈ text then [] else text)
      ∧ (isBlank text = false → ∃ left middle right, text = left ++ (middle ++ right)
          ∧ LongestBlank (· <+: text) left ∧ LongestBlank (· <:+ text) right
          ∧ trimLines text
            = (if '\n' ∈ left then [] else left)
              ++ (middle ++ if '\n' ∈ right then [] else right))
      ∧ trimLines (trimLines text) = trimLines text
      ∧ (text ≠ [] → (trimLines text = [] ↔ (NodeKind.text text).isPadding = true)) := by
  refine ⟨trimByOffsets?_eq_some text, trimLines_of_isBlank, ?_, trimLines_trimLines text, ?_⟩
  · intro visible
    exact ⟨lead text, trimRight (trimLeft text), trail text,
      (lead_append_middle_append_trail visible).symm, longestBlank_lead text,
      longestBlank_trail text, trimLines_of_visible visible⟩
  · intro something
    rw [trimLines_eq_nil_iff something]
    simp [NodeKind.isPadding, NodeKind.text?]

theorem trimLines_by_runs_of_wide_blanks :
    (isBlank "\u2003\n\u3000".toList = true ∧ trimLines "\u2003\n\u3000".toList = [])
      ∧ ("\u2003\n\u3000".toList ≠ []
        ∧ (NodeKind.text "\u2003\n\u3000".toList).isPadding = true)
      ∧ isBlank "\u3000\n<b/>\u00a0".toList = false
      ∧ ∃ left middle right, "\u3000\n<b/>\u00a0".toList = left ++ (middle ++ right)
        ∧ LongestBlank (· <+: "\u3000\n<b/>\u00a0".toList) left
        ∧ LongestBlank (· <:+ "\u3000\n<b/>\u00a0".toList) right
        ∧ trimLines "\u3000\n<b/>\u00a0".toList
          = (if '\n' ∈ left then [] else left)
            ++ (middle ++ if '\n' ∈ right then [] else right) := by
  have padding := trimLines_by_runs "\u2003\n\u3000".toList
  have tagged := trimLines_by_runs "\u3000\n<b/>\u00a0".toList
  have trimmed : trimLines "\u2003\n\u3000".toList = [] := padding.2.1 (by decide)
  exact ⟨⟨by decide, trimmed⟩, ⟨by decide, (padding.2.2.2.2 (by decide)).1 trimmed⟩, by decide,
    tagged.2.2.1 (by decide)⟩

end FragmentLint.Text
