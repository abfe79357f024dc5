/-!
Contract: sorting by insertion, which keeps the order of equal elements.

The lists sorted here are nearly in order already, and for those insertion takes one comparison an
element. Main statements: the result holds the same elements (`perm`) and is in order (`ordered`).
-/

namespace FragmentLint.StableSort

variable {α : Type}

/-- Puts an element in front of the first element of a list that is not smaller. -/
def insert (before : α → α → Bool) (new : α) : List α → List α
  | [] => [new]
  | head :: rest => if before new head then new :: head :: rest else head :: insert before new rest

/-- Sorts a list by a reflexive order `before`; of two equal elements the one that comes first in
the list stays first. -/
def sort (before : α → α → Bool) : List α → List α
  | [] => []
  | head :: rest => insert before head (sort before rest)

theorem insert_perm (before : α → α → Bool) (new : α) (list : List α) :
    (insert before new list).Perm (new :: list) := by
  induction list with
  | nil => exact List.Perm.refl _
  | cons head rest inductionHypothesis =>
    unfold insert
    split
    · exact List.Perm.refl _
    · exact (inductionHypothesis.cons head).trans (List.Perm.swap new head rest)

theorem perm (before : α → α → Bool) (list : List α) : (sort before list).Perm list := by
  induction list with
  | nil => exact List.Perm.refl _
  | cons head rest inductionHypothesis =>
    exact (insert_perm before head (sort before rest)).trans (inductionHypothesis.cons head)

/-- An element that a total and transitive order puts somewhere keeps the list in order. -/
theorem ordered_insert {before : α → α → Bool}
    (total : ∀ a b, before a b = true ∨ before b a = true)
    (transitive : ∀ a b c, before a b = true → before b c = true → before a c = true)
    (new : α) {list : List α} (ordered : list.Pairwise (before · · = true)) :
    (insert before new list).Pairwise (before · · = true) := by
  induction list with
  | nil => simp [insert]
  | cons head rest inductionHypothesis =>
    obtain ⟨headFirst, restOrdered⟩ := List.pairwise_cons.1 ordered
    unfold insert
    split
    case isTrue newFirst =>
      refine List.pairwise_cons.2 ⟨?_, ordered⟩
      intro other member
      rcases List.mem_cons.1 member with rfl | member
      · exact newFirst
      · exact transitive _ _ _ newFirst (headFirst other member)
    case isFalse headBefore =>
      refine List.pairwise_cons.2 ⟨?_, inductionHypothesis restOrdered⟩
      intro other member
      rcases List.mem_cons.1 ((insert_perm before new rest).mem_iff.1 member) with rfl | member
      · exact (total head other).resolve_right headBefore
      · exact headFirst other member

/-- Under a total and transitive order the sorted list is in order. -/
theorem ordered {before : α → α → Bool}
    (total : ∀ a b, before a b = true ∨ before b a = true)
    (transitive : ∀ a b c, before a b = true → before b c = true → before a c = true)
    (list : List α) : (sort before list).Pairwise (before · · = true) := by
  induction list with
  | nil => exact List.Pairwise.nil
  | cons head rest inductionHypothesis =>
    exact ordered_insert total transitive head inductionHypothesis

end FragmentLint.StableSort
