import FragmentLint.Text

/-!
Contract: which pieces of a text its slices are.

A slice is there exactly if the text falls apart into three pieces, the middle one of which lies
between the two offsets (`slice?_eq_some_iff`). Main statements: parts of a slice are slices
(`slice?_part`), slices that meet are joined by their common end (`slice?_trans`), and any two
boundaries in order have a slice between them (`exists_slice?_of_le`).
-/

namespace FragmentLint.Text

/-- A cut is a way to write a text as two pieces. -/
theorem cut?_eq_some_iff {text before after : Text} {offset : Nat} :
    cut? text offset = some (before, after) ↔ before ++ after = text ∧ bytes before = offset := by
  constructor
  · intro cut
    exact ⟨append_of_cut? cut, bytes_of_cut? cut⟩
  · rintro ⟨rfl, rfl⟩
    exact cut?_bytes_append before after

/-- Pieces of equal size at the front of equal texts are equal, and so is what follows them. -/
theorem append_inj_of_bytes {before before' after after' : Text}
    (same : before ++ after = before' ++ after') (sizes : bytes before = bytes before') :
    before = before' ∧ after = after' := by
  have left := cut?_bytes_append before after
  have right := cut?_bytes_append before' after'
  rw [same, sizes, right] at left
  simpa [eq_comm] using left

/-- Of two pieces at the front of a text the smaller one is the front of the other. -/
theorem exists_append_of_bytes_le {front back before after : Text}
    (same : front ++ back = before ++ after) (smaller : bytes front ≤ bytes before) :
    ∃ middle, before = front ++ middle ∧ back = middle ++ after := by
  rcases List.append_eq_append_iff.1 same with
    ⟨middle, beforeEq, backEq⟩ | ⟨middle, frontEq, afterEq⟩
  · exact ⟨middle, beforeEq, backEq⟩
  · rw [frontEq, bytes_append] at smaller
    obtain rfl : middle = [] := (bytes_eq_zero_iff middle).1 (by omega)
    exact ⟨[], by rw [frontEq, List.append_nil, List.append_nil], afterEq.symm⟩

/-- What is left of a text behind an offset is a piece at its back. -/
theorem dropBytes?_eq_some_iff {text after : Text} {offset : Nat} :
    dropBytes? text offset = some after ↔
      ∃ before, before ++ after = text ∧ bytes before = offset := by
  rw [dropBytes?_eq_map_cut?, Option.map_eq_some_iff]
  constructor
  · rintro ⟨⟨before, after'⟩, cut, rfl⟩
    exact ⟨before, cut?_eq_some_iff.1 cut⟩
  · rintro ⟨before, pieces⟩
    exact ⟨(before, after), cut?_eq_some_iff.2 pieces, rfl⟩

/-- A slice is the middle one of three pieces of a text. -/
theorem slice?_eq_some_iff {text middle : Text} {start stop : Nat} :
    slice? text start stop = some middle ↔
      ∃ before after, text = before ++ (middle ++ after) ∧ bytes before = start
        ∧ stop = start + bytes middle := by
  constructor
  · intro sliced
    unfold slice? at sliced
    split at sliced
    case isFalse => simp at sliced
    case isTrue ordered =>
      obtain ⟨tail, dropped, cutTail⟩ := Option.bind_eq_some_iff.1 sliced
      obtain ⟨⟨middle', after⟩, cut, rfl⟩ := Option.map_eq_some_iff.1 cutTail
      obtain ⟨before, rfl, rfl⟩ := dropBytes?_eq_some_iff.1 dropped
      obtain ⟨rfl, size⟩ := cut?_eq_some_iff.1 cut
      have stopEq : stop = bytes before + bytes middle' := by omega
      exact ⟨before, after, rfl, rfl, stopEq⟩
  · rintro ⟨before, after, rfl, rfl, rfl⟩
    exact slice?_append before middle after

theorem stop_of_slice? {text middle : Text} {start stop : Nat}
    (sliced : slice? text start stop = some middle) : stop = start + bytes middle := by
  obtain ⟨_, _, _, _, stopEq⟩ := slice?_eq_some_iff.1 sliced
  exact stopEq

theorem slice?_whole (text : Text) : slice? text 0 (bytes text) = some text :=
  slice?_eq_some_iff.2 ⟨[], [], by simp, rfl, by simp⟩

/-- A part of a slice is a slice. -/
theorem slice?_part {text left middle right : Text} {start stop : Nat}
    (sliced : slice? text start stop = some (left ++ (middle ++ right))) :
    slice? text (start + bytes left) (start + bytes left + bytes middle) = some middle := by
  obtain ⟨before, after, rfl, rfl, _⟩ := slice?_eq_some_iff.1 sliced
  exact slice?_eq_some_iff.2 ⟨before ++ left, right ++ after, by simp, by simp, rfl⟩

/-- Two slices of which the second begins where the first ends make up one. -/
theorem slice?_trans {text left right : Text} {start middle stop : Nat}
    (first : slice? text start middle = some left)
    (second : slice? text middle stop = some right) :
    slice? text start stop = some (left ++ right) := by
  obtain ⟨before, after, whole, rfl, rfl⟩ := slice?_eq_some_iff.1 first
  obtain ⟨before', after', whole', sizes, rfl⟩ := slice?_eq_some_iff.1 second
  have same : (before ++ left) ++ after = before' ++ (right ++ after') := by
    rw [← whole', whole, List.append_assoc]
  obtain ⟨rfl, rfl⟩ := append_inj_of_bytes same (by rw [sizes, bytes_append])
  exact slice?_eq_some_iff.2 ⟨before, after', by rw [whole, List.append_assoc], rfl, by
    rw [bytes_append, Nat.add_assoc]⟩

/-- What stands in front of the end of a slice ends in the slice. -/
theorem exists_front_of_slice? {text front piece rest : Text} {start stop : Nat}
    (sliced : slice? text start stop = some piece) (whole : text = front ++ rest)
    (size : bytes front = stop) : ∃ before, front = before ++ piece ∧ bytes before = start := by
  obtain ⟨before, after, whole', beforeSize, stopEq⟩ := slice?_eq_some_iff.1 sliced
  rw [← List.append_assoc] at whole'
  obtain ⟨same, -⟩ := append_inj_of_bytes (whole.symm.trans whole') (by
    rw [size, stopEq, bytes_append, beforeSize])
  exact ⟨before, same, beforeSize⟩

/-- What stands from the beginning of a slice on begins with the slice. -/
theorem exists_back_of_slice? {text front piece back : Text} {start stop : Nat}
    (sliced : slice? text start stop = some piece) (whole : text = front ++ back)
    (size : bytes front = start) : ∃ after, back = piece ++ after := by
  obtain ⟨before, after, whole', beforeSize, -⟩ := slice?_eq_some_iff.1 sliced
  obtain ⟨-, same⟩ := append_inj_of_bytes (whole.symm.trans whole') (size.trans beforeSize.symm)
  exact ⟨after, same⟩

theorem slice?_self {text : Text} {offset : Nat} (boundary : isBoundary text offset = true) :
    slice? text offset offset = some [] := by
  obtain ⟨⟨before, after⟩, cut⟩ := Option.isSome_iff_exists.1 boundary
  obtain ⟨rfl, rfl⟩ := cut?_eq_some_iff.1 cut
  exact slice?_eq_some_iff.2 ⟨before, after, rfl, rfl, rfl⟩

/-- The boundaries of a text are the sizes of the pieces at its front. -/
theorem isBoundary_iff {text : Text} {offset : Nat} :
    isBoundary text offset = true ↔
      ∃ before after, before ++ after = text ∧ bytes before = offset := by
  unfold isBoundary
  rw [Option.isSome_iff_exists]
  constructor
  · rintro ⟨⟨before, after⟩, cut⟩
    exact ⟨before, after, cut?_eq_some_iff.1 cut⟩
  · rintro ⟨before, after, pieces⟩
    exact ⟨(before, after), cut?_eq_some_iff.2 pieces⟩

theorem isBoundary_start {text middle : Text} {start stop : Nat}
    (sliced : slice? text start stop = some middle) : isBoundary text start = true := by
  obtain ⟨before, after, rfl, rfl, _⟩ := slice?_eq_some_iff.1 sliced
  exact isBoundary_iff.2 ⟨before, middle ++ after, rfl, rfl⟩

theorem isBoundary_stop {text middle : Text} {start stop : Nat}
    (sliced : slice? text start stop = some middle) : isBoundary text stop = true := by
  obtain ⟨before, after, rfl, rfl, rfl⟩ := slice?_eq_some_iff.1 sliced
  exact isBoundary_iff.2 ⟨before ++ middle, after, by simp, by simp⟩

/-- Two boundaries in order have a slice between them. -/
theorem exists_slice?_of_le {text : Text} {start stop : Nat} (first : isBoundary text start = true)
    (last : isBoundary text stop = true) (ordered : start ≤ stop) :
    ∃ middle, slice? text start stop = some middle := by
  obtain ⟨before, after, rfl, rfl⟩ := isBoundary_iff.1 first
  obtain ⟨before', after', same, rfl⟩ := isBoundary_iff.1 last
  obtain ⟨middle, rfl, rfl⟩ := exists_append_of_bytes_le same.symm ordered
  exact ⟨middle, slice?_eq_some_iff.2 ⟨before, after', rfl, rfl, bytes_append before middle⟩⟩

theorem le_bytes_of_isBoundary {text : Text} {offset : Nat}
    (boundary : isBoundary text offset = true) : offset ≤ bytes text := by
  obtain ⟨before, after, rfl, rfl⟩ := isBoundary_iff.1 boundary
  rw [bytes_append]
  exact Nat.le_add_right _ _

/-- Whether a piece of text stands in a source from a byte offset on. -/
def StandsAt (source : Text) (start : Nat) (piece : Text) : Prop :=
  slice? source start (start + bytes piece) = some piece

namespace StandsAt

variable {source left right : Text} {start : Nat}

theorem front (stands : StandsAt source start (left ++ right)) : StandsAt source start left := by
  have whole : slice? source start (start + bytes (left ++ right)) = some ([] ++ (left ++ right)) :=
    stands
  exact slice?_part whole

theorem back (stands : StandsAt source start (left ++ right)) :
    StandsAt source (start + bytes left) right := by
  have whole : slice? source start (start + bytes (left ++ right))
      = some (left ++ (right ++ [])) := by
    rw [List.append_nil]
    exact stands
  exact slice?_part whole

theorem tail {c : Char} (stands : StandsAt source start (c :: right)) :
    StandsAt source (start + c.utf8Size) right := by
  have split : StandsAt source start ([c] ++ right) := stands
  exact split.back

theorem whole (source : Text) : StandsAt source 0 source := by
  unfold StandsAt
  rw [Nat.zero_add]
  exact slice?_whole source

end StandsAt

end FragmentLint.Text
