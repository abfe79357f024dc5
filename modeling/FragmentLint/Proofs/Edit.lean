import FragmentLint.Edit
import FragmentLint.Proofs.Text.Boundary

/-!
Contract: when a set of edits can be applied.

The edits that are applied together stand in order (`inOrder_select`), and each of them has to begin
and end between two characters (`spliceFrom_eq_none_iff`). Main statements: edits that replace pieces
of a text can be applied to it (`exists_applyAll`), some edit is applied if there is any
(`select_ne_nil`), edits that save bytes make a shorter text (`bytes_applyAll_le`), and an edit that is
left out begins at or in front of the end of one that is applied (`exists_selected_of_mem_skip`).
-/

namespace FragmentLint.Edit

/-- Whether edits stand in order, the first of them at or behind an offset. -/
def InOrder : Nat → List Edit → Prop
  | _, [] => True
  | copied, edit :: rest => copied ≤ edit.range.start ∧ InOrder edit.range.stop rest

/-- Edits that begin behind the end of one another stand in order. -/
theorem inOrder_selectAfter (taken : Nat) (edits : List Edit) :
    InOrder taken (selectAfter (some taken) edits) := by
  induction edits generalizing taken with
  | nil => exact trivial
  | cons edit rest inductionHypothesis =>
    unfold selectAfter
    split
    · exact inductionHypothesis taken
    next behind => exact ⟨by omega, inductionHypothesis edit.range.stop⟩

theorem inOrder_select (edits : List Edit) : InOrder 0 (select edits) := by
  unfold select
  cases StableSort.sort before edits with
  | nil => exact trivial
  | cons edit rest => exact ⟨Nat.zero_le _, inOrder_selectAfter edit.range.stop rest⟩

/-- Edits are looked at in the order of their ranges. -/
theorem sort_pairwise (edits : List Edit) :
    (StableSort.sort before edits).Pairwise (before · · = true) :=
  StableSort.ordered before_total before_trans edits

theorem mem_sort_iff {edits : List Edit} {edit : Edit} :
    edit ∈ StableSort.sort before edits ↔ edit ∈ edits :=
  (StableSort.perm before edits).mem_iff

theorem selectAfter_sublist (taken : Option Nat) (edits : List Edit) :
    (selectAfter taken edits).Sublist edits := by
  induction edits generalizing taken with
  | nil => exact List.Sublist.refl _
  | cons edit rest inductionHypothesis =>
    cases taken with
    | none => exact (inductionHypothesis _).cons_cons edit
    | some taken =>
      unfold selectAfter
      split
      · exact (inductionHypothesis _).cons edit
      · exact (inductionHypothesis _).cons_cons edit

theorem mem_of_mem_select {edits : List Edit} {edit : Edit} (member : edit ∈ select edits) :
    edit ∈ edits :=
  mem_sort_iff.1 ((selectAfter_sublist none _).subset member)

/-- Of some edits at least one is applied: the one that is taken first. -/
theorem select_ne_nil {edits : List Edit} (some : edits ≠ []) : select edits ≠ [] := by
  unfold select
  cases sorted : StableSort.sort before edits with
  | nil =>
    have same := StableSort.perm before edits
    rw [sorted] at same
    exact absurd same.nil_eq.symm some
  | cons edit rest => exact List.cons_ne_nil _ _

/-! ## Edits that are left out -/

/-- The edits that do not begin behind the end of the one taken before them. -/
def skipAfter : Option Nat → List Edit → List Edit
  | _, [] => []
  | none, edit :: rest => skipAfter (some edit.range.stop) rest
  | some taken, edit :: rest =>
    if edit.range.start ≤ taken then edit :: skipAfter (some taken) rest
    else skipAfter (some edit.range.stop) rest

/-- The edits of a list that are not applied, in the order in which they are passed over. -/
def skip (edits : List Edit) : List Edit := skipAfter none (StableSort.sort before edits)

theorem selectAfter_append_skipAfter_perm (taken : Option Nat) (edits : List Edit) :
    (selectAfter taken edits ++ skipAfter taken edits).Perm edits := by
  induction edits generalizing taken with
  | nil => cases taken <;> exact List.Perm.refl _
  | cons edit rest inductionHypothesis =>
    cases taken with
    | none => exact (inductionHypothesis _).cons edit
    | some taken =>
      unfold selectAfter skipAfter
      by_cases early : edit.range.start ≤ taken
      · rw [if_pos early, if_pos early]
        exact List.perm_middle.trans ((inductionHypothesis _).cons edit)
      · rw [if_neg early, if_neg early]
        exact (inductionHypothesis _).cons edit

/-- Every edit of a list is either applied or left out, as often as it is in the list. -/
theorem select_append_skip_perm (edits : List Edit) : (select edits ++ skip edits).Perm edits :=
  (selectAfter_append_skipAfter_perm none _).trans (StableSort.perm before edits)

theorem mem_of_mem_skip {edits : List Edit} {edit : Edit} (member : edit ∈ skip edits) :
    edit ∈ edits :=
  (select_append_skip_perm edits).mem_iff.1 (List.mem_append_right _ member)

/-- An edit that is left out begins at or in front of the end of the edit that was taken before all
of them, or of one of them that is taken and stands in front of it. -/
theorem exists_taken_of_mem_skipAfter {taken : Option Nat} {edits : List Edit} {edit : Edit}
    (skipped : edit ∈ skipAfter taken edits) :
    (∃ stop ∈ taken, edit.range.start ≤ stop)
      ∨ ∃ applied ∈ selectAfter taken edits,
        [applied, edit].Sublist edits ∧ edit.range.start ≤ applied.range.stop := by
  induction edits generalizing taken with
  | nil => cases taken <;> cases skipped
  | cons head rest inductionHypothesis =>
    -- The head is taken; what is left out behind it begins in front of its end or of a later one's.
    have behindHead : edit ∈ skipAfter (some head.range.stop) rest →
        ∃ applied ∈ head :: selectAfter (some head.range.stop) rest,
          [applied, edit].Sublist (head :: rest) ∧ edit.range.start ≤ applied.range.stop := by
      intro later
      rcases inductionHypothesis later with ⟨stop, stopEq, early⟩ | ⟨applied, isApplied, inFront, early⟩
      · obtain rfl := Option.some.inj stopEq
        have inRest : edit ∈ rest :=
          (selectAfter_append_skipAfter_perm _ rest).mem_iff.1 (List.mem_append_right _ later)
        refine ⟨head, List.mem_cons_self, ?_, early⟩
        exact (List.singleton_sublist.2 inRest).cons_cons head
      · exact ⟨applied, List.mem_cons_of_mem _ isApplied, inFront.cons head, early⟩
    cases taken with
    | none => exact Or.inr (behindHead skipped)
    | some taken =>
      unfold skipAfter at skipped
      unfold selectAfter
      by_cases early : head.range.start ≤ taken
      · rw [if_pos early] at skipped ⊢
        rcases List.mem_cons.1 skipped with rfl | later
        · exact Or.inl ⟨taken, rfl, early⟩
        · rcases inductionHypothesis later with byTaken | ⟨applied, isApplied, inFront, place⟩
          · exact Or.inl byTaken
          · exact Or.inr ⟨applied, isApplied, inFront.cons head, place⟩
      · rw [if_neg early] at skipped ⊢
        exact Or.inr (behindHead skipped)

/-- An edit that is left out begins at or in front of the end of one that is applied and stands in
front of it among the edits in order. -/
theorem exists_selected_in_front_of_mem_skip {edits : List Edit} {edit : Edit}
    (skipped : edit ∈ skip edits) :
    ∃ applied ∈ select edits, [applied, edit].Sublist (StableSort.sort before edits)
      ∧ edit.range.start ≤ applied.range.stop := by
  rcases exists_taken_of_mem_skipAfter skipped with ⟨_, nothing, -⟩ | found
  · cases nothing
  · exact found

/-- An edit that is left out begins at or in front of the end of one that is applied and comes before
it. -/
theorem exists_selected_of_mem_skip {edits : List Edit} {edit : Edit}
    (skipped : edit ∈ skip edits) :
    ∃ applied ∈ select edits,
      before applied edit = true ∧ edit.range.start ≤ applied.range.stop := by
  obtain ⟨applied, isApplied, inFront, early⟩ := exists_selected_in_front_of_mem_skip skipped
  have pair := (sort_pairwise edits).sublist inFront
  rw [List.pairwise_pair] at pair
  exact ⟨applied, isApplied, pair, early⟩

/-! ## What edits make of a text -/

/-- Whether an edit puts a text in the place of a range that has at least `saved` bytes more. -/
def Saves (saved : Nat) (edit : Edit) : Prop :=
  edit.range.start + Text.bytes edit.replacement + saved ≤ edit.range.stop

/-- Each edit that is carried out saves its bytes. -/
theorem bytes_spliceFrom_le {source result : Text} {copied saved : Nat} {edits : List Edit}
    (spliced : spliceFrom source copied edits = some result)
    (saves : ∀ edit ∈ edits, edit.Saves saved) :
    copied + Text.bytes result + saved * edits.length ≤ Text.bytes source := by
  induction edits generalizing copied result with
  | nil =>
    obtain ⟨before, rfl, rfl⟩ := Text.dropBytes?_eq_some_iff.1 spliced
    simp
  | cons edit rest inductionHypothesis =>
    unfold spliceFrom at spliced
    obtain ⟨kept, keptEq, more⟩ := Option.bind_eq_some_iff.1 spliced
    obtain ⟨tail, tailEq, done⟩ := Option.bind_eq_some_iff.1 more
    obtain rfl := Option.some.inj done
    have startEq := Text.stop_of_slice? keptEq
    have own : edit.Saves saved := saves edit List.mem_cons_self
    have others := inductionHypothesis tailEq
      fun edit member => saves edit (List.mem_cons_of_mem _ member)
    unfold Saves at own
    rw [Text.bytes_append, Text.bytes_append, List.length_cons, Nat.mul_succ]
    omega

/-- Edits that save bytes make a text that is shorter by what is saved by those that are applied. -/
theorem bytes_applyAll_le {source result : Text} {saved : Nat} {edits : List Edit}
    (applied : applyAll source edits = some result) (saves : ∀ edit ∈ edits, edit.Saves saved) :
    Text.bytes result + saved * (select edits).length ≤ Text.bytes source := by
  have shorter := bytes_spliceFrom_le applied
    fun edit member => saves edit (mem_of_mem_select member)
  omega

/-- Edits in order can be carried out if and only if they, and what is kept, begin and end between two
characters; an edit whose ends are out of order is no exception. -/
theorem spliceFrom_eq_none_iff {source : Text} {start : Nat} {edits : List Edit}
    (inOrder : InOrder start edits) :
    spliceFrom source start edits = none ↔ Text.isBoundary source start = false
      ∨ ∃ edit ∈ edits, Text.isBoundary source edit.range.start = false
        ∨ Text.isBoundary source edit.range.stop = false := by
  induction edits generalizing start with
  | nil =>
    rw [spliceFrom, Text.dropBytes?_eq_none_iff]
    simp
  | cons edit rest inductionHypothesis =>
    obtain ⟨behind, restInOrder⟩ := inOrder
    have keptIff := @Text.slice?_eq_none_iff source _ _ behind
    have tailIff := inductionHypothesis restInOrder
    have parts : spliceFrom source start (edit :: rest) = none
        ↔ Text.slice? source start edit.range.start = none
          ∨ spliceFrom source edit.range.stop rest = none := by
      rw [spliceFrom]
      cases Text.slice? source start edit.range.start with
      | none => simp
      | some kept => cases spliceFrom source edit.range.stop rest <;> simp
    rw [parts, keptIff, tailIff]
    simp only [List.mem_cons, exists_eq_or_imp, or_assoc]

/-- Edits in order that replace pieces of a text can be carried out from an offset in front of them
on. -/
theorem exists_spliceFrom {source : Text} {copied : Nat} {edits : List Edit}
    (boundary : Text.isBoundary source copied = true) (inOrder : InOrder copied edits)
    (replace : ∀ edit ∈ edits, ∃ piece,
      Text.slice? source edit.range.start edit.range.stop = some piece) :
    ∃ result, spliceFrom source copied edits = some result := by
  cases spliced : spliceFrom source copied edits with
  | some result => exact ⟨result, rfl⟩
  | none =>
    rcases (spliceFrom_eq_none_iff inOrder).1 spliced with missed | ⟨edit, member, missed⟩
    · rw [boundary] at missed
      cases missed
    · obtain ⟨piece, sliced⟩ := replace edit member
      rw [Text.isBoundary_start sliced, Text.isBoundary_stop sliced] at missed
      simp at missed

/-- Edits that replace pieces of a text can be applied to it. -/
theorem exists_applyAll {source : Text} {edits : List Edit}
    (replace : ∀ edit ∈ edits, ∃ piece,
      Text.slice? source edit.range.start edit.range.stop = some piece) :
    ∃ result, applyAll source edits = some result :=
  exists_spliceFrom (Text.isBoundary_iff.2 ⟨[], source, rfl, rfl⟩) (inOrder_select edits)
    fun edit member => replace edit (mem_of_mem_select member)

/-- A single edit puts its replacement in the place of the piece that it replaces. -/
theorem applyAll_singleton {front piece back : Text} {edit : Edit}
    (start : edit.range.start = Text.bytes front)
    (stop : edit.range.stop = Text.bytes front + Text.bytes piece) :
    applyAll (front ++ (piece ++ back)) [edit] = some (front ++ (edit.replacement ++ back)) := by
  have one : select [edit] = [edit] := rfl
  have kept : Text.slice? (front ++ (piece ++ back)) 0 (Text.bytes front) = some front := by
    have part := Text.slice?_append [] front (piece ++ back)
    rwa [Text.bytes_nil, Nat.zero_add] at part
  have tail : Text.dropBytes? (front ++ (piece ++ back)) (Text.bytes front + Text.bytes piece)
      = some back := by
    refine Text.dropBytes?_eq_some_iff.2 ⟨front ++ piece, ?_, ?_⟩
    · rw [List.append_assoc]
    · rw [Text.bytes_append]
  unfold applyAll
  rw [one, spliceFrom, spliceFrom, start, stop, kept, tail]
  simp only [Option.bind_eq_bind, Option.bind_some, List.append_assoc]
  rfl

end FragmentLint.Edit
