import FragmentLint.Proofs.Edit

/-!
Contract: the rule by which edits are chosen, read off from front to back.

Edits stand in the order of their ranges, and those with equal ranges in the order in which they were
asked for. The first of them is chosen, and each later one that begins strictly behind the end of the
one that was chosen last. Main statement: these are the edits that are applied together
(`select_eq_chosen`).

Does not own: what the edits make of a text.
-/

namespace FragmentLint

namespace StableSort

variable {α : Type} {before : α → α → Bool}

/-- A new element is carried over all that is smaller, and no further. -/
theorem insert_append {new : α} {front back : List α}
    (smaller : ∀ other ∈ front, before new other = false)
    (first : ∀ other ∈ back, before new other = true) :
    insert before new (front ++ back) = front ++ new :: back := by
  induction front with
  | nil =>
    cases back with
    | nil => rfl
    | cons next last => exact if_pos (first next List.mem_cons_self)
  | cons head rest inductionHypothesis =>
    have carried : ¬ before new head = true := by
      rw [smaller head List.mem_cons_self]
      exact Bool.false_ne_true
    rw [List.cons_append, insert, if_neg carried, inductionHypothesis, List.cons_append]
    intro other member
    exact smaller other (List.mem_cons_of_mem _ member)

/-- Sorting by insertion is the stable sort of the library: equal elements stay in their order. -/
theorem sort_eq_mergeSort (total : ∀ a b, before a b = true ∨ before b a = true)
    (transitive : ∀ a b c, before a b = true → before b c = true → before a c = true)
    (list : List α) : sort before list = list.mergeSort before := by
  have total' : ∀ a b, (before a b || before b a) = true := by
    intro a b
    rw [Bool.or_eq_true]
    exact total a b
  induction list with
  | nil => rw [sort, List.mergeSort_nil]
  | cons head rest inductionHypothesis =>
    obtain ⟨front, back, whole, others, smaller⟩ :=
      List.mergeSort_cons transitive total' head rest
    have sorted := List.pairwise_mergeSort transitive total' (head :: rest)
    rw [whole] at sorted
    have headFirst := (List.pairwise_cons.1 (List.pairwise_append.1 sorted).2.1).1
    rw [whole, sort, inductionHypothesis, others]
    apply insert_append
    · intro other member
      simpa using smaller other member
    · exact headFirst

end StableSort

namespace Edit

/-- Whether an edit may be chosen when others were chosen already: there is none yet, or the edit
begins strictly behind the end of the last. -/
def mayFollow (chosen : List Edit) (edit : Edit) : Bool :=
  chosen.getLast?.all fun last => last.range.stop < edit.range.start

/-- The edits that are chosen when one more edit has been looked at. -/
def choose (chosen : List Edit) (edit : Edit) : List Edit :=
  if mayFollow chosen edit then chosen ++ [edit] else chosen

/-- Edits in the order of their ranges. -/
def arranged (edits : List Edit) : List Edit := edits.mergeSort before

/-- The edits that are chosen from some when all have been looked at. -/
def chosen (edits : List Edit) : List Edit := (arranged edits).foldl choose []

theorem sort_eq_arranged (edits : List Edit) : StableSort.sort before edits = arranged edits :=
  StableSort.sort_eq_mergeSort before_total before_trans edits

/-- Of what was chosen only the end of the last edit matters for what else is chosen. -/
theorem foldl_choose (taken edits : List Edit) :
    edits.foldl choose taken
      = taken ++ selectAfter (taken.getLast?.map fun last => last.range.stop) edits := by
  induction edits generalizing taken with
  | nil => cases taken.getLast? <;> simp [selectAfter]
  | cons edit rest inductionHypothesis =>
    rw [List.foldl_cons, inductionHypothesis]
    unfold choose mayFollow
    cases last : taken.getLast? with
    | none => simp [selectAfter]
    | some previous =>
      by_cases behind : previous.range.stop < edit.range.start
      · have late : ¬ edit.range.start ≤ previous.range.stop := by omega
        simp [selectAfter, behind, late]
      · have early : edit.range.start ≤ previous.range.stop := by omega
        simp [selectAfter, behind, early, last]

/-- The edits that are applied together are those that are chosen. -/
theorem select_eq_chosen (edits : List Edit) : select edits = chosen edits := by
  have fromNone := foldl_choose [] (arranged edits)
  rw [List.nil_append] at fromNone
  unfold select chosen
  rw [sort_eq_arranged, fromNone]
  rfl

/-- What was chosen once is chosen again. -/
theorem selectAfter_selectAfter (taken : Option Nat) (edits : List Edit) :
    selectAfter taken (selectAfter taken edits) = selectAfter taken edits := by
  induction edits generalizing taken with
  | nil => cases taken <;> rfl
  | cons edit rest inductionHypothesis =>
    cases taken with
    | none =>
      show edit :: selectAfter _ (selectAfter _ rest) = edit :: selectAfter _ rest
      rw [inductionHypothesis]
    | some taken =>
      by_cases early : edit.range.start ≤ taken
      · rw [selectAfter, if_pos early]
        exact inductionHypothesis (some taken)
      · rw [selectAfter, if_neg early, selectAfter, if_neg early, inductionHypothesis]

/-- Choosing among the chosen edits leaves none of them out. -/
theorem select_select (edits : List Edit) : select (select edits) = select edits := by
  have stays : StableSort.sort before (select edits) = select edits := by
    rw [sort_eq_arranged]
    exact List.mergeSort_of_pairwise ((sort_pairwise edits).sublist (selectAfter_sublist none _))
  have again := selectAfter_selectAfter none (StableSort.sort before edits)
  show selectAfter none (StableSort.sort before (select edits)) = select edits
  rw [stays]
  exact again

end Edit

end FragmentLint
