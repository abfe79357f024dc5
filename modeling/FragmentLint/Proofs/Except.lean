import Mathlib.Data.List.Forall2

/-!
Contract: when computations that may fail succeed.

A computation in steps succeeds if and only if every step of it does.
-/

namespace FragmentLint

theorem ok_of_toOption {α ε : Type} {outcome : Except ε α} {result : α}
    (there : outcome.toOption = some result) : outcome = .ok result := by
  cases outcome with
  | error reason => cases there
  | ok found => exact congrArg Except.ok (Option.some.inj there)

/-- A computation in two steps succeeds if and only if both do. -/
theorem bind_eq_ok_iff {α β ε : Type} {first : Except ε α} {second : α → Except ε β} {result : β} :
    first >>= second = .ok result ↔ ∃ value, first = .ok value ∧ second value = .ok result := by
  cases first with
  | error reason => simp [bind, Except.bind]
  | ok value => simp [bind, Except.bind]

theorem ite_eq_ok_iff {α ε : Type} {refused : Prop} [Decidable refused] {reason : ε}
    {value result : α} :
    (if refused then .error reason else pure value : Except ε α) = .ok result ↔
      ¬ refused ∧ value = result := by
  split
  next isRefused => simp [isRefused]
  next isAccepted => simp [isAccepted, pure, Except.pure]

/-- A traversal succeeds if and only if every step of it does. -/
theorem mapM_eq_ok_iff {α β ε : Type} {f : α → Except ε β} {items : List α} {results : List β} :
    items.mapM f = .ok results ↔ List.Forall₂ (fun item result => f item = .ok result) items
      results := by
  induction items generalizing results with
  | nil => cases results <;> simp [pure, Except.pure]
  | cons head rest inductionHypothesis =>
    rw [List.mapM_cons]
    cases first : f head with
    | error reason => cases results <;> simp [bind, Except.bind, first]
    | ok value =>
      cases others : rest.mapM f with
      | error reason =>
        cases results <;> simp [bind, Except.bind, ← inductionHypothesis, others, first]
      | ok values =>
        cases results <;>
          simp [bind, Except.bind, pure, Except.pure, ← inductionHypothesis, others, first]

theorem exists_mapM_eq_ok {α β ε : Type} {f : α → Except ε β} {items : List α}
    (succeeds : ∀ item ∈ items, ∃ result, f item = .ok result) :
    ∃ results, items.mapM f = .ok results := by
  induction items with
  | nil => exact ⟨[], rfl⟩
  | cons head rest inductionHypothesis =>
    obtain ⟨first, found⟩ := succeeds head List.mem_cons_self
    obtain ⟨others, foundOthers⟩ := inductionHypothesis
      fun item member => succeeds item (List.mem_cons_of_mem _ member)
    exact ⟨first :: others, mapM_eq_ok_iff.2 (.cons found (mapM_eq_ok_iff.1 foundOthers))⟩

/-- Every result of a traversal comes from an item. -/
theorem exists_item_of_mapM {α β ε : Type} {f : α → Except ε β} {items : List α} {results : List β}
    (succeeds : items.mapM f = .ok results) :
    ∀ result ∈ results, ∃ item ∈ items, f item = .ok result := by
  have steps := mapM_eq_ok_iff.1 succeeds
  clear succeeds
  induction steps with
  | nil => simp
  | cons first _ inductionHypothesis =>
    intro result member
    rcases List.mem_cons.1 member with rfl | member
    · exact ⟨_, List.mem_cons_self, first⟩
    · obtain ⟨item, inRest, found⟩ := inductionHypothesis result member
      exact ⟨item, List.mem_cons_of_mem _ inRest, found⟩

/-- Every item of a traversal has a result. -/
theorem exists_result_of_mapM {α β ε : Type} {f : α → Except ε β} {items : List α}
    {results : List β} (succeeds : items.mapM f = .ok results) :
    ∀ item ∈ items, ∃ result ∈ results, f item = .ok result := by
  have steps := mapM_eq_ok_iff.1 succeeds
  clear succeeds
  induction steps with
  | nil => simp
  | cons first _ inductionHypothesis =>
    intro item member
    rcases List.mem_cons.1 member with rfl | member
    · exact ⟨_, List.mem_cons_self, first⟩
    · obtain ⟨result, inRest, found⟩ := inductionHypothesis item member
      exact ⟨result, List.mem_cons_of_mem _ inRest, found⟩

end FragmentLint
