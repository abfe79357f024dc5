import FragmentLint.Proofs.Edit.Choice

/-!
Contract: what the edits that are chosen make of a text, and when they can be carried out.

The pieces that the ranges of the chosen edits delimit are replaced, and all that stands between them
is kept. Main statements: edits that delimit pieces of a text can be carried out, and the result is
that of replacing the chosen ranges one by one, from the last to the first (`applyAll_splices`); any
edits at all can be carried out if and only if the chosen ones begin and end between two characters
(`applyAll_eq_none_iff`).

Does not own: which edits a check asks for.
-/

namespace FragmentLint.Edit

variable {source text result : Text} {start : Nat} {edits : List Edit}

/-- What becomes of a text that begins at an offset when edits are carried out in it: all in front of
the range of the first edit is kept, what stands in the range is replaced, and the other edits are
carried out in what follows. -/
inductive Splices : Nat → Text → List Edit → Text → Prop where
  | rest (start : Nat) (text : Text) : Splices start text [] text
  | edit {start : Nat} {kept piece text result : Text} {edit : Edit} {edits : List Edit}
      (begins : edit.range.start = start + Text.bytes kept)
      (ends : edit.range.stop = edit.range.start + Text.bytes piece)
      (others : Splices edit.range.stop text edits result) :
      Splices start (kept ++ (piece ++ text)) (edit :: edits) (kept ++ (edit.replacement ++ result))

/-- A text with a range of it replaced, whatever stands around it. -/
def replaceIn? (edit : Edit) (text : Text) : Option Text := do
  let front ← Text.slice? text 0 edit.range.start
  let back ← Text.dropBytes? text edit.range.stop
  return front ++ edit.replacement ++ back

/-- Whether an edit replaces a piece of a text: its ends are in order, and each of them falls between
two characters. -/
structure Delimits (source : Text) (edit : Edit) : Prop where
  ordered : edit.range.start ≤ edit.range.stop
  begins : Text.isBoundary source edit.range.start = true
  ends : Text.isBoundary source edit.range.stop = true

theorem delimits_iff {edit : Edit} :
    edit.Delimits source ↔ edit.range.start ≤ edit.range.stop
      ∧ Text.isBoundary source edit.range.start = true
      ∧ Text.isBoundary source edit.range.stop = true :=
  ⟨fun delimits => ⟨delimits.ordered, delimits.begins, delimits.ends⟩,
    fun ⟨ordered, begins, ends⟩ => ⟨ordered, begins, ends⟩⟩

instance (source : Text) (edit : Edit) : Decidable (edit.Delimits source) :=
  decidable_of_iff' _ delimits_iff

/-- Edits in order that delimit pieces of a text can be carried out in what of it is left. -/
theorem exists_splices {front : Text} (inOrder : InOrder (Text.bytes front) edits)
    (delimit : ∀ edit ∈ edits, edit.Delimits (front ++ text)) :
    ∃ result, Splices (Text.bytes front) text edits result := by
  induction edits generalizing front text with
  | nil => exact ⟨text, .rest _ text⟩
  | cons edit rest inductionHypothesis =>
    obtain ⟨behind, restInOrder⟩ := inOrder
    have own := delimit edit List.mem_cons_self
    obtain ⟨kept, more, rfl, begins⟩ := Text.exists_append_of_isBoundary own.begins behind
    have startEq : Text.bytes (front ++ kept) = edit.range.start := by
      rw [Text.bytes_append, begins]
    have whole : front ++ (kept ++ more) = (front ++ kept) ++ more := by
      rw [List.append_assoc]
    have stops := own.ends
    rw [whole] at stops
    obtain ⟨piece, last, rfl, ends⟩ :=
      Text.exists_append_of_isBoundary stops (by rw [startEq]; exact own.ordered)
    have stopEq : Text.bytes (front ++ (kept ++ piece)) = edit.range.stop := by
      rw [ends, Text.bytes_append, Text.bytes_append, Text.bytes_append, Nat.add_assoc]
    rw [← stopEq] at restInOrder
    obtain ⟨result, splices⟩ := @inductionHypothesis last (front ++ (kept ++ piece)) restInOrder (by
      intro other member
      rw [List.append_assoc, List.append_assoc]
      exact delimit other (List.mem_cons_of_mem _ member))
    rw [stopEq] at splices
    rw [startEq] at ends
    exact ⟨_, .edit begins ends splices⟩

/-- Edits that are carried out piece by piece make what they are to make. -/
theorem spliceFrom_of_splices (splices : Splices start text edits result) {front : Text}
    (size : Text.bytes front = start) : spliceFrom (front ++ text) start edits = some result := by
  induction splices generalizing front with
  | rest start text => exact Text.dropBytes?_eq_some_iff.2 ⟨front, rfl, size⟩
  | @edit start kept piece text result edit edits begins ends others inductionHypothesis =>
    have keptEq : Text.slice? (front ++ (kept ++ (piece ++ text))) start edit.range.start
        = some kept :=
      Text.slice?_eq_some_iff.2 ⟨front, piece ++ text, rfl, size, begins⟩
    have stopEq : Text.bytes (front ++ (kept ++ piece)) = edit.range.stop := by
      rw [ends, begins, Text.bytes_append, Text.bytes_append, size, Nat.add_assoc]
    have tail := inductionHypothesis stopEq
    rw [List.append_assoc, List.append_assoc] at tail
    rw [spliceFrom, keptEq, tail]
    simp only [Option.bind_eq_bind, Option.bind_some, List.append_assoc]
    rfl

/-- Replacing the ranges one by one, from the last to the first, leads to the same text: what stands
in front of a range has not been touched when its turn comes. -/
theorem foldrM_replaceIn? (splices : Splices start text edits result) {front : Text}
    (size : Text.bytes front = start) :
    edits.foldrM replaceIn? (front ++ text) = some (front ++ result) := by
  induction splices generalizing front with
  | rest start text => rfl
  | @edit start kept piece text result edit edits begins ends others inductionHypothesis =>
    have startEq : Text.bytes (front ++ kept) = edit.range.start := by
      rw [begins, Text.bytes_append, size]
    have stopEq : Text.bytes (front ++ (kept ++ piece)) = edit.range.stop := by
      rw [ends, begins, Text.bytes_append, Text.bytes_append, size, Nat.add_assoc]
    have later := inductionHypothesis stopEq
    rw [List.append_assoc, List.append_assoc] at later
    have inFront : Text.slice? (front ++ (kept ++ piece) ++ result) 0 edit.range.start
        = some (front ++ kept) := by
      refine Text.slice?_eq_some_iff.2 ⟨[], piece ++ result, ?_, rfl, ?_⟩
      · simp only [List.nil_append, List.append_assoc]
      · rw [startEq, Nat.zero_add]
    have behind : Text.dropBytes? (front ++ (kept ++ piece) ++ result) edit.range.stop
        = some result :=
      Text.dropBytes?_eq_some_iff.2 ⟨front ++ (kept ++ piece), rfl, stopEq⟩
    rw [List.foldrM_cons, later]
    simp only [Option.bind_eq_bind, Option.bind_some, replaceIn?, inFront, behind]
    simp only [List.append_assoc]
    rfl

/-- What applying a set of edits comes to. Let all of them delimit pieces of the source. They stand in
order, and chosen of them are the first and each one that begins strictly behind the end of the one
chosen before it. The result is the source with the pieces that the chosen edits delimit replaced, and
with all else kept in its order; it is what replacing the chosen ranges one by one, from the last to
the first, leads to. Each edit is chosen or left out, and one that is left out begins at or in front
of the end of a chosen one that stands in front of it. -/
theorem applyAll_splices (delimit : ∀ edit ∈ edits, edit.Delimits source) :
    ∃ result, applyAll source edits = some result
      ∧ Splices 0 source (chosen edits) result
      ∧ (chosen edits).foldrM replaceIn? source = some result
      ∧ ∃ skipped, (chosen edits ++ skipped).Perm edits
        ∧ ∀ edit ∈ skipped, ∃ applied ∈ chosen edits,
            [applied, edit].Sublist (arranged edits)
              ∧ edit.range.start ≤ applied.range.stop := by
  have chosenEq := select_eq_chosen edits
  have inOrder : InOrder (Text.bytes []) (chosen edits) := by
    rw [← chosenEq]
    exact inOrder_select edits
  have chosenDelimit : ∀ edit ∈ chosen edits, edit.Delimits ([] ++ source) := by
    intro edit isChosen
    rw [← chosenEq] at isChosen
    exact delimit edit (mem_of_mem_select isChosen)
  obtain ⟨result, splices⟩ := exists_splices inOrder chosenDelimit
  refine ⟨result, ?_, splices, ?_, skip edits, ?_, ?_⟩
  · rw [applyAll, chosenEq]
    exact spliceFrom_of_splices splices rfl
  · exact foldrM_replaceIn? splices rfl
  · rw [← chosenEq]
    exact select_append_skip_perm edits
  · intro edit skipped
    rw [← chosenEq, ← sort_eq_arranged]
    exact exists_selected_in_front_of_mem_skip skipped

/-- Edits of a text of four letters of two bytes each: the first letter is replaced twice over, two
insertions touch other edits, and the last letter is taken away. -/
def touchingEdits : List Edit :=
  [⟨⟨4, 6⟩, "z".toList⟩, ⟨⟨0, 2⟩, "x".toList⟩, ⟨⟨6, 8⟩, []⟩, ⟨⟨2, 2⟩, "v".toList⟩,
    ⟨⟨4, 4⟩, "w".toList⟩, ⟨⟨0, 2⟩, "y".toList⟩]

/-- Of two edits of the same range the first is chosen. The insertion at its end is left out; the other
one is chosen, and the edit that begins where it ends is left out. -/
theorem applyAll_splices_touching :
    (∀ edit ∈ touchingEdits, edit.Delimits "αβγδ".toList)
      ∧ chosen touchingEdits = [⟨⟨0, 2⟩, "x".toList⟩, ⟨⟨4, 4⟩, "w".toList⟩, ⟨⟨6, 8⟩, []⟩]
      ∧ applyAll "αβγδ".toList touchingEdits = some "xβwγ".toList
      ∧ Splices 0 "αβγδ".toList (chosen touchingEdits) "xβwγ".toList
      ∧ (chosen touchingEdits).foldrM replaceIn? "αβγδ".toList = some "xβwγ".toList := by
  have delimit : ∀ edit ∈ touchingEdits, edit.Delimits "αβγδ".toList := by decide
  have chosenEq : select touchingEdits
      = [⟨⟨0, 2⟩, "x".toList⟩, ⟨⟨4, 4⟩, "w".toList⟩, ⟨⟨6, 8⟩, []⟩] := by
    decide
  have computed : applyAll "αβγδ".toList touchingEdits = some "xβwγ".toList := by decide
  obtain ⟨result, applied, splices, oneByOne, -⟩ := applyAll_splices delimit
  rw [computed] at applied
  obtain rfl := Option.some.inj applied
  rw [select_eq_chosen] at chosenEq
  exact ⟨delimit, chosenEq, computed, splices, oneByOne⟩

/-- When a set of edits cannot be applied, whatever the edits are: if and only if one of those that are
chosen begins or ends past the end of the source or inside a character. Edits that are not chosen do
not matter, for the chosen ones alone lead to the same; nor does it matter whether the ends of an edit
are in order. -/
theorem applyAll_eq_none_iff (source : Text) (edits : List Edit) :
    (applyAll source edits = none ↔ ∃ edit ∈ chosen edits,
      Text.Misses source edit.range.start ∨ Text.Misses source edit.range.stop)
    ∧ applyAll source (chosen edits) = applyAll source edits := by
  constructor
  · have inOrder := inOrder_select edits
    have begins : Text.isBoundary source 0 = true := Text.isBoundary_iff.2 ⟨[], source, rfl, rfl⟩
    rw [applyAll, spliceFrom_eq_none_iff inOrder, begins, select_eq_chosen]
    simp only [Bool.true_eq_false, false_or, Text.isBoundary_eq_false_iff]
  · rw [← select_eq_chosen, applyAll, select_select, applyAll]

/-- The second edit would end inside a character, but it is left out. The third one ends in front of
its beginning, so what stands between its ends is there twice afterwards. -/
example : applyAll "abcé".toList [⟨⟨0, 1⟩, []⟩, ⟨⟨1, 4⟩, []⟩, ⟨⟨3, 2⟩, "-".toList⟩]
    = some "bc-cé".toList := by
  decide

end FragmentLint.Edit
