import FragmentLint.Proofs.Edit
import Mathlib.Data.List.Dedup

/-!
Contract: the order in which edits are asked for, and how often, does not matter.

Edits of one range that ask for different replacements compete, and the first of them wins. Where no
edits compete, the edits in the order of their ranges are the same for every order in which they are
asked for. A copy of an edit then stands right behind it and begins at or in front of its end, so it is
passed over with it or because of it. Main statement: what edits make of a text depends on nothing but
which edits there are (`applyAll_eq_of_same_edits`).

Does not own: edits that compete.
-/

namespace FragmentLint.Edit

/-- Whether edits of the same range always ask for the same replacement. -/
def Agree (edits : List Edit) : Prop :=
  ∀ edit ∈ edits, ∀ other ∈ edits, edit.range = other.range → edit.replacement = other.replacement

instance (edits : List Edit) : Decidable (Agree edits) := by
  unfold Agree
  infer_instance

/-- Edits of which each comes before the other have the same range. -/
theorem range_eq_of_before {edit other : Edit} (first : before edit other = true)
    (second : before other edit = true) : edit.range = other.range := by
  obtain ⟨⟨start, stop⟩, replacement⟩ := edit
  obtain ⟨⟨start', stop'⟩, replacement'⟩ := other
  simp only [before, Bool.or_eq_true, Bool.and_eq_true, decide_eq_true_eq, beq_iff_eq]
    at first second
  simp only [Span.mk.injEq]
  omega

variable {edits left right : List Edit}

theorem Agree.eq_of_before (agree : Agree edits) {edit other : Edit} (member : edit ∈ edits)
    (otherMember : other ∈ edits) (first : before edit other = true)
    (second : before other edit = true) : edit = other := by
  have ranges := range_eq_of_before first second
  have replacements := agree edit member other otherMember ranges
  cases edit
  cases other
  exact congr (congrArg Edit.mk ranges) replacements

theorem Agree.of_subset (agree : Agree right) (subset : left ⊆ right) : Agree left :=
  fun edit member other otherMember =>
    agree edit (subset member) other (subset otherMember)

/-- Edits that do not compete have one order only. -/
theorem Agree.eq_of_perm (agree : Agree left) (leftOrdered : left.Pairwise (before · · = true))
    (rightOrdered : right.Pairwise (before · · = true)) (same : left.Perm right) : left = right := by
  refine List.Perm.eq_of_pairwise ?_ leftOrdered rightOrdered same
  intro edit other member otherMember first second
  exact agree.eq_of_before member (same.mem_iff.2 otherMember) first second

theorem Agree.sort (agree : Agree edits) : Agree (StableSort.sort before edits) :=
  agree.of_subset fun _ => mem_sort_iff.1

/-- The same edits are applied, whatever the order in which they are asked for. -/
theorem select_eq_of_perm (agree : Agree left) (same : left.Perm right) :
    select left = select right := by
  have sorted : (StableSort.sort before left).Perm (StableSort.sort before right) :=
    (StableSort.perm before left).trans (same.trans (StableSort.perm before right).symm)
  unfold select
  rw [agree.sort.eq_of_perm (sort_pairwise left) (sort_pairwise right) sorted]

/-- A copy that stands right behind an edit makes no difference: if the edit is taken, the copy begins
at or in front of its end, and if it is passed over, so is the copy. -/
theorem selectAfter_cons_self {edit : Edit} (ordered : edit.range.start ≤ edit.range.stop)
    (taken : Option Nat) (rest : List Edit) :
    selectAfter taken (edit :: edit :: rest) = selectAfter taken (edit :: rest) := by
  have passedOver : selectAfter (some edit.range.stop) (edit :: rest)
      = selectAfter (some edit.range.stop) rest := by
    rw [selectAfter, if_pos ordered]
  cases taken with
  | none => rw [selectAfter, passedOver, selectAfter]
  | some taken =>
    by_cases early : edit.range.start ≤ taken
    · rw [selectAfter, if_pos early]
    · rw [selectAfter, if_neg early, passedOver, selectAfter, if_neg early]

/-- In order, an edit that comes again comes again at once. -/
theorem exists_cons_of_mem {edit : Edit} (agree : Agree (edit :: edits))
    (ordered : (edit :: edits).Pairwise (before · · = true)) (again : edit ∈ edits) :
    ∃ rest, edits = edit :: rest := by
  obtain ⟨first, restOrdered⟩ := List.pairwise_cons.1 ordered
  cases edits with
  | nil => cases again
  | cons next rest =>
    have nextFirst : before next edit = true := by
      rcases List.mem_cons.1 again with rfl | later
      · exact first edit List.mem_cons_self
      · exact (List.pairwise_cons.1 restOrdered).1 edit later
    have same := agree.eq_of_before List.mem_cons_self
      (List.mem_cons_of_mem _ List.mem_cons_self) (first next List.mem_cons_self) nextFirst
    exact ⟨rest, by rw [same]⟩

/-- Of edits in order each may as well be there once only. -/
theorem selectAfter_dedup (agree : Agree edits) (ordered : edits.Pairwise (before · · = true))
    (ends : ∀ edit ∈ edits, edit.range.start ≤ edit.range.stop) (taken : Option Nat) :
    selectAfter taken edits.dedup = selectAfter taken edits := by
  induction edits generalizing taken with
  | nil => rfl
  | cons edit rest inductionHypothesis =>
    have restSame := inductionHypothesis
      (agree.of_subset (List.subset_cons_self edit rest)) (List.pairwise_cons.1 ordered).2
      fun other member => ends other (List.mem_cons_of_mem _ member)
    by_cases again : edit ∈ rest
    · obtain ⟨last, rfl⟩ := exists_cons_of_mem agree ordered again
      rw [List.dedup_cons_of_mem again, restSame,
        selectAfter_cons_self (ends edit List.mem_cons_self)]
    · rw [List.dedup_cons_of_notMem again]
      cases taken with
      | none => rw [selectAfter, selectAfter, restSame]
      | some taken => rw [selectAfter, selectAfter, restSame, restSame]

/-- The same edits are applied, however often each of them is asked for. -/
theorem select_eq_of_mem_iff (agree : Agree left)
    (ends : ∀ edit ∈ left, edit.range.start ≤ edit.range.stop)
    (same : ∀ edit, edit ∈ left ↔ edit ∈ right) : select left = select right := by
  have agreeRight : Agree right := agree.of_subset fun edit => (same edit).2
  have endsRight : ∀ edit ∈ right, edit.range.start ≤ edit.range.stop :=
    fun edit member => ends edit ((same edit).2 member)
  have once : (StableSort.sort before left).dedup = (StableSort.sort before right).dedup := by
    refine (agree.sort.of_subset (List.dedup_sublist _).subset).eq_of_perm
      ((sort_pairwise left).sublist (List.dedup_sublist _))
      ((sort_pairwise right).sublist (List.dedup_sublist _)) ?_
    refine (List.perm_ext_iff_of_nodup (List.nodup_dedup _) (List.nodup_dedup _)).2 ?_
    intro edit
    rw [List.mem_dedup, List.mem_dedup, mem_sort_iff, mem_sort_iff]
    exact same edit
  calc select left
      = selectAfter none (StableSort.sort before left).dedup :=
        (selectAfter_dedup agree.sort (sort_pairwise left)
          (fun edit member => ends edit (mem_sort_iff.1 member)) none).symm
    _ = selectAfter none (StableSort.sort before right).dedup := by rw [once]
    _ = select right :=
        selectAfter_dedup agreeRight.sort (sort_pairwise right)
          (fun edit member => endsRight edit (mem_sort_iff.1 member)) none

/-- What edits make of a text, or that they cannot be applied to it, depends on nothing but which edits
there are, if edits of the same range ask for the same replacement. They may be asked for in any other
order. If moreover the ends of each are in order, further copies of some of them may stand at any
places, and any edits of which those are all will do as well. -/
theorem applyAll_eq_of_same_edits {edits : List Edit} (agree : Agree edits) (source : Text) :
    (∀ others, edits.Perm others → applyAll source edits = applyAll source others)
      ∧ ((∀ edit ∈ edits, edit.range.start ≤ edit.range.stop) →
        (∀ more, edits.Sublist more → more ⊆ edits → applyAll source edits = applyAll source more)
          ∧ ∀ others, (∀ edit, edit ∈ edits ↔ edit ∈ others) →
              applyAll source edits = applyAll source others) := by
  constructor
  · intro others same
    unfold applyAll
    rw [select_eq_of_perm agree same]
  · intro ends
    have sameSet : ∀ others, (∀ edit, edit ∈ edits ↔ edit ∈ others) →
        applyAll source edits = applyAll source others := by
      intro others same
      unfold applyAll
      rw [select_eq_of_mem_iff agree ends same]
    refine ⟨?_, sameSet⟩
    intro more inserted copies
    exact sameSet more fun edit => ⟨fun member => inserted.subset member, fun member => copies member⟩

/-- Edits of a text of four letters of two bytes each: two of them are applied, and two touch those and
are left out. -/
def severalEdits : List Edit :=
  [⟨⟨4, 6⟩, "z".toList⟩, ⟨⟨0, 2⟩, "x".toList⟩, ⟨⟨2, 2⟩, "v".toList⟩, ⟨⟨6, 8⟩, []⟩]

/-- The same edits, all but one of them twice. -/
def repeatedEdits : List Edit :=
  [⟨⟨2, 2⟩, "v".toList⟩, ⟨⟨4, 6⟩, "z".toList⟩, ⟨⟨0, 2⟩, "x".toList⟩, ⟨⟨4, 6⟩, "z".toList⟩,
    ⟨⟨2, 2⟩, "v".toList⟩, ⟨⟨6, 8⟩, []⟩, ⟨⟨0, 2⟩, "x".toList⟩]

/-- Neither the order nor the copies matter, where the edits can be applied and where they cannot. -/
theorem applyAll_eq_of_same_edits_repeated :
    Agree severalEdits ∧ severalEdits.Perm severalEdits.reverse
      ∧ (∀ edit ∈ severalEdits, edit.range.start ≤ edit.range.stop)
      ∧ severalEdits.Sublist repeatedEdits ∧ repeatedEdits ⊆ severalEdits
      ∧ applyAll "αβγδ".toList severalEdits = some "xβzδ".toList
      ∧ applyAll "αβγδ".toList severalEdits.reverse = some "xβzδ".toList
      ∧ applyAll "αβγδ".toList repeatedEdits = some "xβzδ".toList
      ∧ applyAll "αβγδ".toList repeatedEdits.reverse = some "xβzδ".toList
      ∧ applyAll "abcé".toList severalEdits = none
      ∧ applyAll "abcé".toList repeatedEdits = none := by
  have agree : Agree severalEdits := by decide
  have ends : ∀ edit ∈ severalEdits, edit.range.start ≤ edit.range.stop := by decide
  have inserted : severalEdits.Sublist repeatedEdits := by decide
  have copies : repeatedEdits ⊆ severalEdits := by decide
  have reversed : severalEdits.Perm severalEdits.reverse := (List.reverse_perm _).symm
  have same : ∀ edit, edit ∈ severalEdits ↔ edit ∈ repeatedEdits.reverse := by
    intro edit
    rw [List.mem_reverse]
    exact ⟨fun member => inserted.subset member, fun member => copies member⟩
  have applied : applyAll "αβγδ".toList severalEdits = some "xβzδ".toList := by decide
  have missed : applyAll "abcé".toList severalEdits = none := by decide
  obtain ⟨byOrder, byCopies⟩ := applyAll_eq_of_same_edits agree "αβγδ".toList
  obtain ⟨-, missedByCopies⟩ := applyAll_eq_of_same_edits agree "abcé".toList
  refine ⟨agree, reversed, ends, inserted, copies, applied, ?_, ?_, ?_, missed, ?_⟩
  · rw [← byOrder _ reversed, applied]
  · rw [← (byCopies ends).1 _ inserted copies, applied]
  · rw [← (byCopies ends).2 _ same, applied]
  · rw [← (missedByCopies ends).1 _ inserted copies, missed]

/-- A copy of an edit that ends in front of its beginning is carried out once more. -/
example : applyAll "abc".toList [⟨⟨2, 1⟩, "-".toList⟩] = some "ab-bc".toList
    ∧ applyAll "abc".toList [⟨⟨2, 1⟩, "-".toList⟩, ⟨⟨2, 1⟩, "-".toList⟩]
      = some "ab-b-bc".toList := by
  decide

end FragmentLint.Edit
