/-!
Contract: texts, their size in bytes, and cutting them at byte offsets.

A text is the list of its characters. Offsets into a text count the bytes of its UTF-8 form, so
not every offset falls between two characters: `cut?` and `slice?` answer `none` for those that
do not. Main statements: a cut loses nothing (`append_of_cut?`), falls where it was asked for
(`bytes_of_cut?`), and is possible exactly after a whole number of characters
(`cut?_bytes_append`). Texts are ordered as their bytes are (`precedes`).

Does not own: lines and columns, which belong to documents.
-/

namespace FragmentLint

abbrev Text := List Char

namespace Text

def bytes : Text → Nat
  | [] => 0
  | c :: rest => c.utf8Size + bytes rest

@[simp] theorem bytes_nil : bytes [] = 0 := rfl

@[simp] theorem bytes_cons (c : Char) (text : Text) :
    bytes (c :: text) = c.utf8Size + bytes text := rfl

@[simp] theorem bytes_append (left right : Text) :
    bytes (left ++ right) = bytes left + bytes right := by
  induction left with
  | nil => simp
  | cons c rest inductionHypothesis => simp [inductionHypothesis, Nat.add_assoc]

theorem bytes_eq_zero_iff (text : Text) : bytes text = 0 ↔ text = [] := by
  cases text with
  | nil => simp
  | cons c rest =>
    have positive := c.utf8Size_pos
    simp only [bytes_cons, reduceCtorEq, iff_false]
    omega

/-- Cuts a text in two at a byte offset. There is no such cut past the end of the text or inside a
character. -/
def cut? : Text → Nat → Option (Text × Text)
  | text, 0 => some ([], text)
  | [], _ + 1 => none
  | c :: rest, offset + 1 =>
    if c.utf8Size ≤ offset + 1 then
      match cut? rest (offset + 1 - c.utf8Size) with
      | some (before, after) => some (c :: before, after)
      | none => none
    else none

@[simp] theorem cut?_zero (text : Text) : cut? text 0 = some ([], text) := by
  cases text <;> rfl

theorem append_of_cut? {text before after : Text} {offset : Nat}
    (cut : cut? text offset = some (before, after)) : before ++ after = text := by
  fun_induction cut? text offset generalizing before after with
  | case1 => simp_all
  | case2 => simp at cut
  | case3 c rest offset fits before' after' found inductionHypothesis =>
    simp only [Option.some.injEq, Prod.mk.injEq] at cut
    obtain ⟨rfl, rfl⟩ := cut
    simp [inductionHypothesis found]
  | case4 => simp at cut
  | case5 => simp at cut

/-- The left side of a cut takes exactly the bytes up to the offset. -/
theorem bytes_of_cut? {text before after : Text} {offset : Nat}
    (cut : cut? text offset = some (before, after)) : bytes before = offset := by
  fun_induction cut? text offset generalizing before after with
  | case1 => simp_all
  | case2 => simp at cut
  | case3 c rest offset fits before' after' found inductionHypothesis =>
    simp only [Option.some.injEq, Prod.mk.injEq] at cut
    obtain ⟨rfl, rfl⟩ := cut
    have size := inductionHypothesis found
    simp only [bytes_cons]
    omega
  | case4 => simp at cut
  | case5 => simp at cut

/-- A text can be cut after every whole number of its characters. -/
@[simp] theorem cut?_bytes_append (before after : Text) :
    cut? (before ++ after) (bytes before) = some (before, after) := by
  induction before with
  | nil => simp
  | cons c rest inductionHypothesis =>
    have positive := c.utf8Size_pos
    obtain ⟨offset, offsetEq⟩ : ∃ offset, c.utf8Size + bytes rest = offset + 1 :=
      ⟨c.utf8Size + bytes rest - 1, by omega⟩
    have fits : c.utf8Size ≤ offset + 1 := by omega
    have remaining : offset + 1 - c.utf8Size = bytes rest := by omega
    simp [bytes_cons, offsetEq, cut?, fits, remaining, inductionHypothesis]

/-- Whether an offset falls between two characters of a text, its two ends included. -/
def isBoundary (text : Text) (offset : Nat) : Bool :=
  (cut? text offset).isSome

/-- The part of a text from a byte offset to its end: the right side of the cut there. -/
def dropBytes? : Text → Nat → Option Text
  | text, 0 => some text
  | [], _ + 1 => none
  | c :: rest, offset + 1 =>
    if c.utf8Size ≤ offset + 1 then dropBytes? rest (offset + 1 - c.utf8Size) else none

/-- Dropping is cutting and keeping the right side. -/
theorem dropBytes?_eq_map_cut? (text : Text) (offset : Nat) :
    dropBytes? text offset = (cut? text offset).map Prod.snd := by
  fun_induction cut? text offset with
  | case1 text => cases text <;> rfl
  | case2 => rfl
  | case3 c rest offset fits before after found inductionHypothesis =>
    simp [dropBytes?, fits, inductionHypothesis, found]
  | case4 c rest offset fits missing inductionHypothesis =>
    simp [dropBytes?, fits, inductionHypothesis, missing]
  | case5 c rest offset short => simp [dropBytes?, short]

/-- The part of a text between two byte offsets; `none` when they are out of order or one of them
is not a boundary. -/
def slice? (text : Text) (start stop : Nat) : Option Text :=
  if start ≤ stop then
    (dropBytes? text start).bind fun tail => (cut? tail (stop - start)).map Prod.fst
  else none

/-- Slicing out a part that is known to be there gives that part. -/
theorem slice?_append (before middle after : Text) :
    slice? (before ++ (middle ++ after)) (bytes before) (bytes before + bytes middle)
      = some middle := by
  simp [slice?, dropBytes?_eq_map_cut?]

/-- Whether a text is equal to another one or comes before it by the first character in which they
differ. The order of their UTF-8 bytes is the same. -/
def precedes : Text → Text → Bool
  | [], _ => true
  | _ :: _, [] => false
  | c :: rest, d :: others => c.toNat < d.toNat || (c == d && precedes rest others)

theorem precedes_total (left right : Text) :
    precedes left right = true ∨ precedes right left = true := by
  fun_induction precedes left right with
  | case1 => exact Or.inl rfl
  | case2 => exact Or.inr rfl
  | case3 c rest d others inductionHypothesis =>
    simp only [precedes, Bool.or_eq_true, Bool.and_eq_true, decide_eq_true_eq, beq_iff_eq]
    rcases Nat.lt_trichotomy c.toNat d.toNat with less | equal | greater
    · exact Or.inl (Or.inl less)
    · have same : c = d := Char.toNat_inj.1 equal
      rcases inductionHypothesis with first | second
      · exact Or.inl (Or.inr ⟨same, first⟩)
      · exact Or.inr (Or.inr ⟨same.symm, second⟩)
    · exact Or.inr (Or.inl greater)

theorem precedes_trans (first second third : Text) (left : precedes first second = true)
    (right : precedes second third = true) : precedes first third = true := by
  fun_induction precedes first second generalizing third with
  | case1 => rfl
  | case2 => simp at left
  | case3 c rest d others inductionHypothesis =>
    cases third with
    | nil => simp [precedes] at right
    | cons e last =>
      simp only [precedes, Bool.or_eq_true, Bool.and_eq_true, decide_eq_true_eq, beq_iff_eq]
        at left right ⊢
      rcases left with less | ⟨rfl, restFirst⟩
      · rcases right with lessAgain | ⟨rfl, _⟩
        · exact Or.inl (Nat.lt_trans less lessAgain)
        · exact Or.inl less
      · rcases right with less | ⟨rfl, othersFirst⟩
        · exact Or.inl less
        · exact Or.inr ⟨rfl, inductionHypothesis last restFirst othersFirst⟩

/-- The characters written without quotation marks; for text that goes to the outside. -/
def toString (text : Text) : String := String.ofList text

end Text

end FragmentLint
