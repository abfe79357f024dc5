import FragmentLint.Grammar.Name
import Mathlib.Data.List.TakeWhile

/-!
Contract: the characters of words and of the names in tags.

No sign that separates names and none that begins trivia stands in them, apart from the dashes of a
dashed name, and a name never begins with a dash. Main statement: `isWord_of_word?`.
-/

namespace FragmentLint.Grammar

namespace Lexeme

/-- Whether a character may stand in a word, those that escape others included. -/
def isWordChar (c : Char) : Bool := isWordPart c || "\\\x7b\x7d".toList.contains c

theorem isWordPart_of_ascii {test : Char → Bool} (small : ∀ c, test c = true → c.toNat < 128)
    (each : ∀ n : Fin 128, test (Char.ofNat n) = true → isWordPart (Char.ofNat n) = true) {c : Char}
    (holds : test c = true) : isWordPart c = true := by
  have fits := each ⟨c.toNat, small c holds⟩
  rw [Char.ofNat_toNat] at fits
  exact fits holds

theorem toNat_lt_of_isAlphanum {c : Char} (alphanumeric : c.isAlphanum = true) : c.toNat < 128 := by
  have below (last : Char) (within : c.val ≤ last.val) (small : last.toNat < 128) : c.toNat < 128 :=
    Nat.lt_of_le_of_lt (UInt32.le_iff_toNat_le.1 within) small
  have upperLowerOrDigit : (c.isUpper || c.isLower || c.isDigit) = true := alphanumeric
  simp only [Bool.or_eq_true] at upperLowerOrDigit
  rcases upperLowerOrDigit with (upper | lower) | digit
  · exact below 'Z' (of_decide_eq_true upper).2 (by decide)
  · exact below 'z' (of_decide_eq_true (Bool.and_eq_true_iff.1 lower).2) (by decide)
  · exact below '9' (of_decide_eq_true (Bool.and_eq_true_iff.1 digit).2) (by decide)

theorem isWordPart_of_isHex {c : Char} (hex : isHex c = true) : isWordPart c = true := by
  refine isWordPart_of_ascii ?_ (by decide +kernel) hex
  intro c hex
  simp only [isHex, Char.isDigit, Bool.or_eq_true, Bool.and_eq_true, decide_eq_true_eq,
    Char.le_def, UInt32.le_iff_toNat_le, ge_iff_le] at hex
  unfold Char.toNat
  have capital : 'F'.val.toNat = 70 := rfl
  have small : 'f'.val.toNat = 102 := rfl
  have digit : '9'.val.toNat = 57 := rfl
  omega

theorem isWordPart_of_isDashedPart {c : Char} (part : isDashedPart c = true) :
    isWordPart c = true := by
  refine isWordPart_of_ascii ?_ (by decide +kernel) part
  intro c part
  simp only [isDashedPart, Bool.or_eq_true, beq_iff_eq] at part
  rcases part with (alphanumeric | rfl) | rfl
  · exact toNat_lt_of_isAlphanum alphanumeric
  · decide
  · decide

theorem isWordChar_of_isWordPart {c : Char} (part : isWordPart c = true) : isWordChar c = true := by
  simp [isWordChar, part]

theorem isWordChar_of_bracedHex? {text : Text} {length : Nat}
    (found : bracedHex? text = some length) : ∀ c ∈ text.take length, isWordChar c = true := by
  unfold bracedHex? at found
  split at found
  next rest =>
    simp only at found
    split at found
    · cases found
    · split at found
      next closed =>
        cases found
        rw [beq_iff_eq] at closed
        have tail : (rest.drop (rest.takeWhile isHex).length).take 1 = ['}'] := by
          rw [List.take_one, closed]
          rfl
        have run : rest.take (rest.takeWhile isHex).length = rest.takeWhile isHex :=
          List.prefix_iff_eq_take.1 (List.takeWhile_prefix _) |>.symm
        intro c member
        rw [List.take_succ_cons, List.take_add, run, tail] at member
        simp only [List.mem_cons, List.mem_append, List.not_mem_nil, or_false] at member
        rcases member with rfl | inRun | rfl
        · decide
        · exact isWordChar_of_isWordPart (isWordPart_of_isHex (List.mem_takeWhile_imp inRun))
        · decide
      next => cases found
  next => cases found

theorem isWordChar_of_unicodeForm? {text : Text} {length : Nat}
    (found : unicodeForm? text = some length) : ∀ c ∈ text.take length, isWordChar c = true := by
  unfold unicodeForm? at found
  split at found
  next braced =>
    cases found
    exact isWordChar_of_bracedHex? braced
  next =>
    split at found
    next digits =>
      cases found
      simp only [Bool.and_eq_true, List.all_eq_true] at digits
      exact fun c member => isWordChar_of_isWordPart (isWordPart_of_isHex (digits.2 c member))
    next => cases found

theorem isWordChar_of_wordPartsAlong (bound text : Text) :
    ∀ c ∈ text.take (wordPartsAlong bound text), isWordChar c = true := by
  induction bound generalizing text with
  | nil => simp [wordPartsAlong]
  | cons _ bound inductionHypothesis =>
    unfold wordPartsAlong
    split
    next rest =>
      split
      next length found =>
        have escaped := isWordChar_of_unicodeForm? found
        have others := inductionHypothesis (rest.drop length)
        intro c member
        rw [show length + 2 + wordPartsAlong bound (rest.drop length)
            = (length + wordPartsAlong bound (rest.drop length)) + 2 by omega,
          List.take_succ_cons, List.take_succ_cons, List.take_add] at member
        simp only [List.mem_cons, List.mem_append] at member
        rcases member with rfl | rfl | inForm | behind
        · decide
        · decide
        · exact escaped c inForm
        · exact others c behind
      next => simp
    next c rest _ =>
      split
      next part =>
        intro other member
        rw [Nat.add_comm, List.take_succ_cons] at member
        rcases List.mem_cons.1 member with rfl | behind
        · exact isWordChar_of_isWordPart part
        · exact inductionHypothesis rest other behind
      next => simp
    next => simp

theorem isWordChar_of_word? {text : Text} {length : Nat} (found : word? text = some length) :
    ∀ c ∈ text.take length, isWordChar c = true := by
  unfold word? at found
  split at found
  · split at found
    · cases found
    · simp only at found
      split at found
      · cases found
      · cases found
        exact isWordChar_of_wordPartsAlong _ _
  · cases found

/-- A word that is read is not empty. -/
theorem exists_cons_of_word? {text : Text} {length : Nat} (found : word? text = some length) :
    ∃ c rest, text.take length = c :: rest := by
  unfold word? at found
  split at found
  next c rest =>
    split at found
    · cases found
    · simp only at found
      split at found
      · cases found
      next positive =>
        cases found
        obtain ⟨length, lengthEq⟩ := Nat.exists_eq_succ_of_ne_zero (by simpa using positive)
        exact ⟨c, rest.take length, by rw [lengthEq, List.take_succ_cons]⟩
  · cases found

end Lexeme

namespace TagName

/-- Whether a character may stand in one of the names that a tag name is made of. -/
def isNameChar (c : Char) : Bool := Lexeme.isWordChar c || c == '-'

/-- Whether a text may be one of the names that a tag name is made of. -/
inductive IsWord : Text → Prop where
  | intro {c : Char} {rest : Text} (begins : Lexeme.isWordChar c = true)
      (chars : ∀ d ∈ rest, isNameChar d = true) : IsWord (c :: rest)

theorem isNameChar_of_isWordChar {c : Char} (part : Lexeme.isWordChar c = true) :
    isNameChar c = true := by
  simp [isNameChar, part]

theorem isWord_of_plain? {text : Text} {length : Nat} (found : Lexeme.word? text = some length) :
    IsWord (text.take length) := by
  have chars := Lexeme.isWordChar_of_word? found
  obtain ⟨c, rest, isWord⟩ := Lexeme.exists_cons_of_word? found
  rw [isWord] at chars ⊢
  obtain ⟨begins, others⟩ := List.forall_mem_cons.1 chars
  exact .intro begins fun d member => isNameChar_of_isWordChar (others d member)

theorem isWord_of_dashed? {text : Text} {length : Nat} (found : Lexeme.dashed? text = some length) :
    IsWord (text.take length) := by
  have part {c : Char} (isPart : Lexeme.isDashedPart c = true) : Lexeme.isWordChar c = true :=
    Lexeme.isWordChar_of_isWordPart (Lexeme.isWordPart_of_isDashedPart isPart)
  unfold Lexeme.dashed? at found
  split at found
  next c rest =>
    split at found
    next begins =>
      simp only [Bool.and_eq_true] at begins
      simp only at found
      split at found
      next behind dash =>
        cases found
        -- The name is a run of parts, a dash, and a run of parts and dashes.
        have head : (c :: rest).take ((c :: rest).takeWhile Lexeme.isDashedPart).length
            = c :: rest.takeWhile Lexeme.isDashedPart := by
          rw [← List.prefix_iff_eq_take.1 (List.takeWhile_prefix _),
            List.takeWhile_cons_of_pos begins.1]
        have tail (test : Char → Bool) :
            behind.take (behind.takeWhile test).length = behind.takeWhile test :=
          (List.prefix_iff_eq_take.1 (List.takeWhile_prefix _)).symm
        rw [Nat.add_assoc, List.take_add, dash, head, Nat.add_comm 1, List.take_succ_cons, tail,
          List.cons_append]
        refine .intro (part begins.1) fun d member => ?_
        simp only [List.mem_append, List.mem_cons] at member
        rcases member with inHead | rfl | inTail
        · exact isNameChar_of_isWordChar (part (List.mem_takeWhile_imp inHead))
        · rfl
        · have either := List.mem_takeWhile_imp inTail
          simp only [Bool.or_eq_true, beq_iff_eq] at either
          rcases either with isPart | rfl
          · exact isNameChar_of_isWordChar (part isPart)
          · rfl
      next => cases found
    next => cases found
  next => cases found

/-- What is read as a word or a dashed name is one. -/
theorem isWord_of_word? {text : Text} {length : Nat} (found : word? text = some length) :
    IsWord (text.take length) := by
  unfold word? at found
  split at found
  next dashed =>
    cases found
    exact isWord_of_dashed? dashed
  next => exact isWord_of_plain? found

end TagName

end FragmentLint.Grammar
