import FragmentLint.File.Path
import FragmentLint.Proofs.Text.Padding
import Mathlib.Data.List.Induction
import Mathlib.Data.List.TakeWhile

/-!
Contract: lines of text without the blank runs where they were cut.

Main statements: where two texts meet, the last line of one and the first line of the other are one
line (`splitAt_append`), and a blank run where a text is cut does not matter for the lines that are
not empty (`visible_stripAll`, `visible_stripLines`).
-/

namespace FragmentLint.Text

/-- Lines without the blank runs where they were cut. The first line is kept at its front if nothing
was cut there, the last one is kept at its back. -/
def stripLines (atFront : Bool) : List Text → List Text
  | [] => []
  | [last] => [if atFront then last else trimLeft last]
  | line :: rest => trimRight (if atFront then line else trimLeft line) :: stripLines false rest

/-! Blank runs -/

theorem trail_append_of_isBlank {run : Text} (blank : isBlank run = true) (text : Text) :
    trail (text ++ run) = trail text ++ run := by
  have blankBack : isBlank run.reverse = true := (isBlank_reverse run).trans blank
  unfold trail
  rw [List.reverse_append, lead_append_of_isBlank blankBack, List.reverse_append,
    List.reverse_reverse]

theorem trimRight_append_of_isBlank {run : Text} (blank : isBlank run = true) (text : Text) :
    trimRight (text ++ run) = trimRight text := by
  have blankBack : isBlank run.reverse = true := (isBlank_reverse run).trans blank
  unfold trimRight
  rw [List.reverse_append, trimLeft_append_of_isBlank blankBack]

theorem trimLeft_append_of_not_isBlank {text : Text} (visible : isBlank text = false)
    (rest : Text) :
    trimLeft (text ++ rest) = trimLeft text ++ rest := by
  induction text with
  | nil => cases visible
  | cons c others inductionHypothesis =>
    by_cases blank : isBlankChar c = true
    · have othersVisible : isBlank others = false := by
        simpa [isBlank, blank] using visible
      simp only [trimLeft, List.cons_append, List.dropWhile_cons, blank, if_true]
      exact inductionHypothesis othersVisible
    · simp only [trimLeft, List.cons_append, List.dropWhile_cons, blank, if_false,
      Bool.false_eq_true]

theorem trimRight_append_of_not_isBlank {text : Text} (visible : isBlank text = false)
    (before : Text) : trimRight (before ++ text) = before ++ trimRight text := by
  have visibleBack : isBlank text.reverse = false := (isBlank_reverse text).trans visible
  unfold trimRight
  rw [List.reverse_append, trimLeft_append_of_not_isBlank visibleBack, List.reverse_append,
    List.reverse_reverse]

theorem trimLeft_eq_nil_iff {text : Text} : trimLeft text = [] ↔ isBlank text = true := by
  unfold trimLeft isBlank
  rw [List.dropWhile_eq_nil_iff, List.all_eq_true]

theorem trimRight_eq_nil_iff {text : Text} : trimRight text = [] ↔ isBlank text = true := by
  unfold trimRight
  rw [List.reverse_eq_nil_iff, trimLeft_eq_nil_iff, isBlank_reverse]

theorem lead_trimLeft (text : Text) : lead (trimLeft text) = [] := by
  induction text with
  | nil => rfl
  | cons c rest inductionHypothesis =>
    by_cases blank : isBlankChar c = true
    · simp only [trimLeft, List.dropWhile_cons, blank, if_true]
      exact inductionHypothesis
    · simp only [trimLeft, lead, List.dropWhile_cons, List.takeWhile_cons, blank, if_false,
        Bool.false_eq_true]

theorem trail_trimRight (text : Text) : trail (trimRight text) = [] := by
  unfold trail trimRight
  rw [List.reverse_reverse, lead_trimLeft, List.reverse_nil]

theorem lead_of_isBlank {run : Text} (blank : isBlank run = true) : lead run = run := by
  have whole := lead_append_trimLeft run
  rw [trimLeft_eq_nil_iff.2 blank, List.append_nil] at whole
  exact whole

theorem trail_of_isBlank {run : Text} (blank : isBlank run = true) : trail run = run := by
  have whole := trimRight_append_trail run
  rw [trimRight_eq_nil_iff.2 blank, List.nil_append] at whole
  exact whole

theorem trimLeft_trimLeft (text : Text) : trimLeft (trimLeft text) = trimLeft text := by
  have whole := lead_append_trimLeft (trimLeft text)
  rw [lead_trimLeft, List.nil_append] at whole
  exact whole

theorem trimRight_trimRight (text : Text) : trimRight (trimRight text) = trimRight text := by
  have whole := trimRight_append_trail (trimRight text)
  rw [trail_trimRight, List.append_nil] at whole
  exact whole

theorem isBlank_trimLeft (text : Text) : isBlank (trimLeft text) = isBlank text := by
  have whole := congrArg isBlank (lead_append_trimLeft text)
  rw [isBlank_append, isBlank_lead, Bool.true_and] at whole
  exact whole

theorem isBlank_trimRight (text : Text) : isBlank (trimRight text) = isBlank text := by
  have whole := congrArg isBlank (trimRight_append_trail text)
  rw [isBlank_append, isBlank_trail, Bool.and_true] at whole
  exact whole

theorem trail_trimLeft {text : Text} (visible : isBlank text = false) :
    trail (trimLeft text) = trail text := by
  have visibleRest : isBlank (trimLeft text) = false := (isBlank_trimLeft text).trans visible
  have back : trimRight text = lead text ++ trimRight (trimLeft text) := by
    rw [← trimRight_append_of_not_isBlank visibleRest, lead_append_trimLeft]
  have whole := trimRight_append_trail text
  have part := trimRight_append_trail (trimLeft text)
  rw [back, List.append_assoc] at whole
  have same : trimRight (trimLeft text) ++ trail text
      = trimRight (trimLeft text) ++ trail (trimLeft text) := by
    rw [part]
    apply @List.append_cancel_left _ (lead text)
    rw [whole, lead_append_trimLeft]
  exact (List.append_cancel_left same).symm

theorem lead_append_of_not_isBlank {text : Text} (visible : isBlank text = false) (rest : Text) :
    lead (text ++ rest) = lead text := by
  have whole := lead_append_trimLeft (text ++ rest)
  rw [trimLeft_append_of_not_isBlank visible] at whole
  apply @List.append_cancel_right _ _ (trimLeft text ++ rest)
  rw [whole, ← List.append_assoc, lead_append_trimLeft]

/-! Lines -/

/-- Where two texts meet, the last line of one and the first line of the other are one line. -/
theorem splitAt_append (mark : Char) (left right : Text) :
    ∃ before last first after, splitAt mark left = before ++ [last]
      ∧ splitAt mark right = first :: after
      ∧ splitAt mark (left ++ right) = before ++ (last ++ first) :: after := by
  obtain ⟨first, after, rightEq⟩ := List.exists_cons_of_ne_nil (splitAt_ne_nil mark right)
  induction left with
  | nil => exact ⟨[], [], first, after, rfl, rightEq, rightEq⟩
  | cons c rest inductionHypothesis =>
    obtain ⟨before, last, first', after', restEq, rightEq', bothEq⟩ := inductionHypothesis
    by_cases isMark : (c == mark) = true
    · refine ⟨[] :: before, last, first', after', ?_, rightEq', ?_⟩
      · rw [splitAt, if_pos isMark, restEq, List.cons_append]
      · rw [List.cons_append, splitAt, if_pos isMark, bothEq, List.cons_append]
    · cases before with
      | nil =>
        refine ⟨[], c :: last, first', after', ?_, rightEq', ?_⟩
        · rw [splitAt, if_neg isMark, restEq]
          rfl
        · rw [List.cons_append, splitAt, if_neg isMark, bothEq]
          rfl
      | cons head others =>
        refine ⟨(c :: head) :: others, last, first', after', ?_, rightEq', ?_⟩
        · rw [splitAt, if_neg isMark, restEq]
          rfl
        · rw [List.cons_append, splitAt, if_neg isMark, bothEq]
          rfl

theorem splitAt_append_cons (mark : Char) (left right : Text) :
    splitAt mark (left ++ mark :: right) = splitAt mark left ++ splitAt mark right := by
  obtain ⟨before, last, first, after, leftEq, rightEq, bothEq⟩ :=
    splitAt_append mark left (mark :: right)
  rw [splitAt, if_pos (beq_self_eq_true mark)] at rightEq
  obtain ⟨rfl, rfl⟩ := List.cons.inj rightEq
  rw [bothEq, leftEq, List.append_nil, List.append_assoc, List.singleton_append]

theorem splitAt_of_not_mem {mark : Char} {text : Text} (none : mark ∉ text) :
    splitAt mark text = [text] := by
  induction text with
  | nil => rfl
  | cons c rest inductionHypothesis =>
    obtain ⟨other, restNone⟩ : mark ≠ c ∧ mark ∉ rest := by simpa using none
    rw [splitAt, if_neg (by simpa using Ne.symm other), inductionHypothesis restNone]

/-- A text without the mark is one piece; else the mark stands first behind the first piece. -/
theorem splitAt_cases (mark : Char) (text : Text) :
    (mark ∉ text ∧ splitAt mark text = [text])
      ∨ ∃ first rest, text = first ++ mark :: rest ∧ mark ∉ first
          ∧ splitAt mark text = first :: splitAt mark rest := by
  by_cases marked : mark ∈ text
  · right
    obtain ⟨first, rest, rfl, unmarked⟩ := List.eq_append_cons_of_mem marked
    refine ⟨first, rest, rfl, unmarked, ?_⟩
    rw [splitAt_append_cons, splitAt_of_not_mem unmarked]
    rfl
  · exact Or.inl ⟨marked, splitAt_of_not_mem marked⟩

/-- Lines without the blank runs where they were cut, all of them cut at their back. -/
def stripAll (atFront : Bool) : List Text → List Text
  | [] => []
  | line :: rest => trimRight (if atFront then line else trimLeft line) :: stripAll false rest

theorem stripLines_cons (atFront : Bool) (line : Text) {rest : List Text} (more : rest ≠ []) :
    stripLines atFront (line :: rest)
      = trimRight (if atFront then line else trimLeft line) :: stripLines false rest := by
  cases rest with
  | nil => exact absurd rfl more
  | cons next others => rfl

/-- Only the last of several lines is not cut at its back. -/
theorem stripLines_append (atFront : Bool) (before : List Text) (line : Text) (after : List Text) :
    stripLines atFront (before ++ line :: after)
      = stripAll atFront before ++ stripLines (atFront && before.isEmpty) (line :: after) := by
  induction before generalizing atFront with
  | nil => simp [stripAll]
  | cons head rest inductionHypothesis =>
    have tail := inductionHypothesis false
    rw [Bool.false_and] at tail
    rw [List.cons_append, stripLines_cons atFront head (by simp), tail, stripAll, List.isEmpty_cons,
      Bool.and_false, List.cons_append]

theorem stripAll_append (atFront : Bool) (before : List Text) (line : Text) :
    stripAll atFront (before ++ [line])
      = stripAll atFront before
        ++ [trimRight (if atFront && before.isEmpty then line else trimLeft line)] := by
  induction before generalizing atFront with
  | nil => simp [stripAll]
  | cons head rest inductionHypothesis =>
    have tail := inductionHypothesis false
    rw [Bool.false_and] at tail
    rw [List.cons_append, stripAll, tail, stripAll, List.isEmpty_cons, Bool.and_false,
      List.cons_append]

/-- Lines that are not empty. -/
def visible (lines : List Text) : List Text := lines.filter (!·.isEmpty)

theorem visible_append (before after : List Text) :
    visible (before ++ after) = visible before ++ visible after := List.filter_append ..

/-- The blank run at the back of a text does not matter if the text is cut there. -/
theorem visible_stripAll (text : Text) :
    visible (stripAll true (splitAt '\n' text))
      = visible (stripLines true (splitAt '\n' (trimRight text))) := by
  induction text using List.reverseRecOn with
  | nil => rfl
  | append_singleton text c inductionHypothesis =>
    obtain ⟨before, last, first, after, textEq, singleEq, bothEq⟩ := splitAt_append '\n' text [c]
    by_cases blank : isBlankChar c = true
    · have blankText : isBlank [c] = true := by simpa [isBlank] using blank
      rw [trimRight_append_of_isBlank blankText, ← inductionHypothesis]
      by_cases isLineFeed : c = '\n'
      · subst isLineFeed
        rw [splitAt_append_cons]
        show visible (stripAll true (splitAt '\n' text ++ [[]])) = _
        rw [stripAll_append, visible_append]
        simp [visible, trimLeft, trimRight]
      · have noLineFeed : '\n' ∉ [c] := by simpa using Ne.symm isLineFeed
        rw [splitAt_of_not_mem noLineFeed] at singleEq
        obtain ⟨rfl, rfl⟩ := List.cons.inj singleEq
        rw [bothEq, textEq, stripAll_append, stripAll_append]
        have same : trimRight (if true && before.isEmpty then last ++ [c] else trimLeft
          (last ++ [c]))
            = trimRight (if true && before.isEmpty then last else trimLeft last) := by
          split
          · exact trimRight_append_of_isBlank blankText last
          · by_cases lastBlank : isBlank last = true
            · have bothBlank : isBlank (last ++ [c]) = true := by
                rw [isBlank_append, lastBlank, blankText]
                rfl
              rw [trimLeft_eq_nil_iff.2 bothBlank, trimLeft_eq_nil_iff.2 lastBlank]
            · rw [trimLeft_append_of_not_isBlank (Bool.eq_false_iff.2 lastBlank)]
              exact trimRight_append_of_isBlank blankText _
        rw [same]
    · have visibleText : isBlank [c] = false := by simpa [isBlank] using blank
      have noLineFeed : '\n' ∉ [c] := by
        intro isLineFeed
        rw [← List.mem_singleton.1 isLineFeed] at blank
        exact blank (by decide)
      rw [splitAt_of_not_mem noLineFeed] at singleEq
      obtain ⟨rfl, rfl⟩ := List.cons.inj singleEq
      have single : trimRight [c] = [c] := by
        simp [trimRight, trimLeft, Bool.eq_false_iff.2 blank]
      rw [trimRight_append_of_not_isBlank visibleText, single, bothEq, stripAll_append,
        stripLines_append, stripLines]
      have keptBack : ∀ line : Text, trimRight (line ++ [c]) = line ++ [c] := by
        intro line
        rw [trimRight_append_of_not_isBlank visibleText, single]
      split
      · rw [keptBack]
      · by_cases lastBlank : isBlank last = true
        · rw [trimLeft_append_of_isBlank lastBlank]
          have front : trimLeft [c] = [c] := by simp [trimLeft, Bool.eq_false_iff.2 blank]
          rw [front, single]
        · rw [trimLeft_append_of_not_isBlank (Bool.eq_false_iff.2 lastBlank), keptBack]

/-- The blank run at the front of a text does not matter if the text is cut there. -/
theorem visible_stripLines (text : Text) :
    visible (stripLines false (splitAt '\n' text))
      = visible (stripLines true (splitAt '\n' (trimLeft text))) := by
  induction text with
  | nil => rfl
  | cons c rest inductionHypothesis =>
    obtain ⟨first, after, restEq⟩ := List.exists_cons_of_ne_nil (splitAt_ne_nil '\n' rest)
    by_cases blank : isBlankChar c = true
    · have trimmed : trimLeft (c :: rest) = trimLeft rest := by
        simp [trimLeft, blank]
      rw [trimmed, ← inductionHypothesis]
      by_cases isLineFeed : c = '\n'
      · subst isLineFeed
        rw [splitAt, if_pos (beq_self_eq_true _), stripLines_cons _ _ (splitAt_ne_nil '\n' rest)]
        simp [visible, trimLeft, trimRight]
      · rw [splitAt, if_neg (by simpa using isLineFeed), restEq]
        have line : trimLeft (c :: first) = trimLeft first := by simp [trimLeft, blank]
        cases after with
        | nil => simp [stripLines, line]
        | cons next others => simp [stripLines, line]
    · have trimmed : trimLeft (c :: rest) = c :: rest := by simp [trimLeft, blank]
      have noLineFeed : c ≠ '\n' := by
        rintro rfl
        exact blank (by decide)
      rw [trimmed, splitAt, if_neg (by simpa using noLineFeed), restEq]
      have line : trimLeft (c :: first) = c :: first := by simp [trimLeft, blank]
      cases after with
      | nil => simp [stripLines, line]
      | cons next others => simp [stripLines, line]

end FragmentLint.Text
