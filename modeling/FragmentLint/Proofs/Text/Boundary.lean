import FragmentLint.Proofs.Text.Slice

/-!
Contract: where a text cannot be cut.

An offset is no boundary if and only if it lies past the end of the text or inside one of its
characters (`isBoundary_eq_false_iff`), and these are the only offsets at which a cut fails
(`slice?_eq_none_iff`, `dropBytes?_eq_none_iff`).

Does not own: what is cut out at boundaries.
-/

namespace FragmentLint.Text

/-- Whether an offset lies past the end of a text or inside one of its characters. -/
def Misses (text : Text) (offset : Nat) : Prop :=
  bytes text < offset ∨ ∃ front c back, text = front ++ c :: back
    ∧ bytes front < offset ∧ offset < bytes front + c.utf8Size

theorem not_isBoundary_of_misses {text : Text} {offset : Nat} (misses : Misses text offset) :
    ¬ isBoundary text offset = true := by
  intro boundary
  rcases misses with past | ⟨front, c, back, rfl, begins, ends⟩
  · have within := le_bytes_of_isBoundary boundary
    omega
  · obtain ⟨before, after, same, rfl⟩ := isBoundary_iff.1 boundary
    rcases List.append_eq_append_iff.1 same with ⟨middle, frontEq, -⟩ | ⟨middle, beforeEq, backEq⟩
    · rw [frontEq, bytes_append] at begins
      omega
    · -- The cut is behind the front, so it is not in front of the character that follows.
      rw [beforeEq, bytes_append] at begins ends
      cases middle with
      | nil =>
        rw [bytes_nil] at begins
        omega
      | cons d rest =>
        obtain ⟨rfl, -⟩ := List.cons.inj backEq
        rw [bytes_cons] at ends
        omega

theorem isBoundary_or_misses (text : Text) (offset : Nat) :
    isBoundary text offset = true ∨ Misses text offset := by
  induction text generalizing offset with
  | nil =>
    by_cases first : offset = 0
    · rw [first]
      exact Or.inl rfl
    · exact Or.inr (Or.inl (Nat.pos_of_ne_zero first))
  | cons c rest inductionHypothesis =>
    by_cases first : offset = 0
    · rw [first]
      exact Or.inl (isBoundary_iff.2 ⟨[], c :: rest, rfl, rfl⟩)
    · by_cases inside : offset < c.utf8Size
      · refine Or.inr (Or.inr ⟨[], c, rest, rfl, Nat.pos_of_ne_zero first, ?_⟩)
        rw [bytes_nil]
        omega
      · rcases inductionHypothesis (offset - c.utf8Size) with boundary | past
          | ⟨front, d, back, restEq, begins, ends⟩
        · left
          obtain ⟨before, after, rfl, size⟩ := isBoundary_iff.1 boundary
          apply isBoundary_iff.2
          refine ⟨c :: before, after, rfl, ?_⟩
          rw [bytes_cons]
          omega
        · right
          left
          rw [bytes_cons]
          omega
        · right
          right
          refine ⟨c :: front, d, back, ?_, ?_, ?_⟩
          · rw [restEq, List.cons_append]
          · rw [bytes_cons]
            omega
          · rw [bytes_cons]
            omega

/-- An offset is no boundary if and only if it lies past the end or inside a character. -/
theorem isBoundary_eq_false_iff {text : Text} {offset : Nat} :
    isBoundary text offset = false ↔ Misses text offset := by
  rw [← Bool.not_eq_true]
  constructor
  · exact (isBoundary_or_misses text offset).resolve_left
  · exact not_isBoundary_of_misses

/-- A boundary behind a piece at the front of a text cuts what follows the piece. -/
theorem exists_append_of_isBoundary {front text : Text} {offset : Nat}
    (boundary : isBoundary (front ++ text) offset = true) (behind : bytes front ≤ offset) :
    ∃ kept rest, text = kept ++ rest ∧ offset = bytes front + bytes kept := by
  have here : isBoundary (front ++ text) (bytes front) = true :=
    isBoundary_iff.2 ⟨front, text, rfl, rfl⟩
  obtain ⟨kept, sliced⟩ := exists_slice?_of_le here boundary behind
  obtain ⟨before, rest, whole, sizes, offsetEq⟩ := slice?_eq_some_iff.1 sliced
  obtain ⟨-, rfl⟩ := append_inj_of_bytes whole sizes.symm
  exact ⟨kept, rest, rfl, offsetEq⟩

theorem slice?_eq_none_iff {text : Text} {start stop : Nat} (ordered : start ≤ stop) :
    slice? text start stop = none
      ↔ isBoundary text start = false ∨ isBoundary text stop = false := by
  constructor
  · intro missing
    by_cases first : isBoundary text start = true
    · right
      rw [Bool.eq_false_iff]
      intro last
      obtain ⟨piece, sliced⟩ := exists_slice?_of_le first last ordered
      rw [missing] at sliced
      cases sliced
    · left
      exact Bool.eq_false_iff.2 first
  · intro missed
    cases sliced : slice? text start stop with
    | none => rfl
    | some piece =>
      rw [isBoundary_start sliced, isBoundary_stop sliced] at missed
      simp at missed

theorem dropBytes?_eq_none_iff {text : Text} {offset : Nat} :
    dropBytes? text offset = none ↔ isBoundary text offset = false := by
  rw [dropBytes?_eq_map_cut?, Option.map_eq_none_iff, isBoundary, Option.isSome_eq_false_iff,
    Option.isNone_iff_eq_none]

end FragmentLint.Text
