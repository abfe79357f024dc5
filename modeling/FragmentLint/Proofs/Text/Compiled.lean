import FragmentLint.Proofs.Text.Lines

/-!
Contract: what becomes of the text between tags when markup is compiled.

Text is cut at its line feeds. Lines lose the blank runs where they were cut, lines left empty are
dropped, and the rest is put together with one space. Main statements: a text is cut in two by a
line feed (`compiled_append_lineFeed`), and where two texts meet, only the blank run between them is
compiled in another way than in each of them alone (`compiled_append`).
-/

namespace FragmentLint.Text

/-- What text between tags is compiled to. -/
def compiled (text : Text) : Text :=
  joinWith ' ' (visible (stripLines true (splitAt '\n' text)))

/-- Two texts with a space between them, if there is something on both sides. -/
def glue (left right : Text) : Text :=
  if left = [] then right else if right = [] then left else left ++ ' ' :: right

/-- What is kept of a blank run: nothing if there is a line feed in it. -/
def kept (run : Text) : Text := if '\n' ∈ run then [] else run

/-- What the blank run between two texts is compiled to. -/
def gap (left right : Text) : Text :=
  if '\n' ∈ trail left ++ lead right then
    if isBlank left || isBlank right then [] else [' ']
  else trail left ++ lead right

theorem glue_append_left {left middle : Text} (something : middle ≠ []) (right : Text) :
    glue (left ++ middle) right = left ++ glue middle right := by
  unfold glue
  rw [if_neg something, if_neg (by simp [something])]
  split
  · rfl
  · rw [List.append_assoc]

theorem glue_append_right (left : Text) {middle : Text} (something : middle ≠ []) (right : Text) :
    glue left (middle ++ right) = glue left middle ++ right := by
  have more : middle ++ right ≠ [] := by simp [something]
  unfold glue
  rw [if_neg something, if_neg more]
  split
  · rfl
  · rw [List.append_assoc, List.cons_append]

/-! Line feeds -/

theorem joinWith_append {before after : List Text}
    (nonempty : ∀ line ∈ before ++ after, line ≠ []) :
    joinWith ' ' (before ++ after) = glue (joinWith ' ' before) (joinWith ' ' after) := by
  induction before with
  | nil => simp [joinWith, glue]
  | cons head rest inductionHypothesis =>
    have headNonempty : head ≠ [] := nonempty head List.mem_cons_self
    have others := inductionHypothesis fun line member =>
      nonempty line (List.mem_cons_of_mem _ member)
    cases rest with
    | nil =>
      cases after with
      | nil => simp [joinWith, glue]
      | cons next more =>
        have nextNonempty : next ≠ [] := nonempty next (by simp)
        have nonemptyJoin : joinWith ' ' (next :: more) ≠ [] := by
          cases more <;> simp [joinWith, nextNonempty]
        simp [joinWith, glue, headNonempty, nonemptyJoin]
    | cons next more =>
      have nextNonempty : next ≠ [] := nonempty next (by simp)
      have nonemptyJoin : joinWith ' ' (next :: more) ≠ [] := by
        cases more <;> simp [joinWith, nextNonempty]
      rw [List.cons_append] at others
      rw [List.cons_append, List.cons_append, joinWith, others, joinWith]
      by_cases none : joinWith ' ' after = []
      · simp [glue, nonemptyJoin, none]
      · simp [glue, nonemptyJoin, none]

/-- A line feed cuts a text in two. -/
theorem compiled_append_lineFeed (left right : Text) :
    compiled (left ++ '\n' :: right)
      = glue (compiled (trimRight left)) (compiled (trimLeft right)) := by
  obtain ⟨first, after, rightEq⟩ := List.exists_cons_of_ne_nil (splitAt_ne_nil '\n' right)
  have leftLine : (splitAt '\n' left).isEmpty = false := by
    rw [List.isEmpty_eq_false_iff]
    exact splitAt_ne_nil '\n' left
  unfold compiled
  rw [splitAt_append_cons, rightEq, stripLines_append, leftLine, Bool.and_false, visible_append,
    ← rightEq, ← visible_stripAll, ← visible_stripLines]
  apply joinWith_append
  intro line member
  rw [← visible_append] at member
  simpa [visible] using (List.mem_filter.1 member).2

theorem compiled_of_not_mem {text : Text} (none : '\n' ∉ text) : compiled text = text := by
  unfold compiled
  rw [splitAt_of_not_mem none]
  cases text with
  | nil => rfl
  | cons c rest => simp [stripLines, visible, joinWith]

/-- A line feed among blanks leaves nothing of them. -/
theorem compiled_of_lineFeed_blank {run : Text} (blank : isBlank run = true) (lineFeed : '\n' ∈ run)
    (left right : Text) :
    compiled (left ++ (run ++ right))
      = glue (compiled (trimRight left)) (compiled (trimLeft right)) := by
  obtain ⟨before, after, rfl⟩ := List.append_of_mem lineFeed
  have parts : isBlank before = true ∧ isBlank after = true := by
    have both : isBlank before = true ∧ isBlank ('\n' :: after) = true := by
      simpa [isBlank_append] using blank
    refine ⟨both.1, ?_⟩
    have behind := both.2
    simp only [isBlank, List.all_cons, Bool.and_eq_true] at behind ⊢
    exact behind.2
  have cut := compiled_append_lineFeed (left ++ before) (after ++ right)
  rw [trimRight_append_of_isBlank parts.1, trimLeft_append_of_isBlank parts.2] at cut
  simpa using cut

theorem compiled_of_isBlank {run : Text} (blank : isBlank run = true) :
    compiled run = kept run := by
  unfold kept
  split
  next lineFeed =>
    have cut := compiled_of_lineFeed_blank blank lineFeed [] []
    rw [List.append_nil, List.nil_append] at cut
    rw [cut]
    rfl
  next none => exact compiled_of_not_mem none

/-! Texts that meet -/

/-- A text on one line is compiled in front of another one as it is, if no line ends where the two
meet. -/
theorem compiled_append_of_line {left right : Text} (oneLine : '\n' ∉ left)
    (noLineFeed : '\n' ∉ lead right) : compiled (left ++ right) = left ++ compiled right := by
  by_cases none : '\n' ∈ right
  · obtain ⟨before, after, rfl, beforeNone⟩ := List.eq_append_cons_of_mem none
    have beforeVisible : isBlank before = false := by
      rw [Bool.eq_false_iff]
      intro blank
      apply noLineFeed
      rw [lead_append_of_isBlank blank]
      apply List.mem_append_right
      simp [lead, isBlankChar]
    have trimmedNone : '\n' ∉ trimRight before := by
      intro member
      apply beforeNone
      rw [← trimRight_append_trail before]
      exact List.mem_append_left _ member
    have something : trimRight before ≠ [] := by
      rw [Ne, trimRight_eq_nil_iff, beforeVisible]
      decide
    have bothNone : '\n' ∉ left ++ trimRight before := by
      rw [List.mem_append]
      exact fun either => either.elim oneLine trimmedNone
    rw [← List.append_assoc, compiled_append_lineFeed, compiled_append_lineFeed,
      trimRight_append_of_not_isBlank beforeVisible, compiled_of_not_mem bothNone,
      compiled_of_not_mem trimmedNone]
    exact glue_append_left something _
  · have bothNone : '\n' ∉ left ++ right := by
      rw [List.mem_append]
      exact fun either => either.elim oneLine none
    rw [compiled_of_not_mem bothNone, compiled_of_not_mem none]

/-- Texts between which no line ends are compiled alike together and apart. -/
theorem compiled_append_of_not_mem {left right : Text}
    (noLineFeed : '\n' ∉ trail left ++ lead right) :
    compiled (left ++ right) = compiled left ++ compiled right := by
  obtain ⟨noTrail, noLead⟩ : '\n' ∉ trail left ∧ '\n' ∉ lead right := by
    simpa using noLineFeed
  by_cases none : '\n' ∈ left
  · -- The last line of the left text is not blank, so it is not dropped.
    obtain ⟨after, before, leftEq, afterNone⟩ := List.eq_append_cons_of_mem
      (List.mem_reverse.2 none)
    have split : left = before.reverse ++ '\n' :: after.reverse := by
      have turned := congrArg List.reverse leftEq
      simpa using turned
    have lastNone : '\n' ∉ after.reverse := fun member => afterNone (List.mem_reverse.1 member)
    have lastVisible : isBlank after.reverse = false := by
      rw [Bool.eq_false_iff]
      intro blank
      apply noTrail
      have blankLine : isBlank ('\n' :: after.reverse) = true := by
        simp only [isBlank, List.all_cons, Bool.and_eq_true]
        exact ⟨by decide, blank⟩
      rw [split, trail_append_of_isBlank blankLine]
      exact List.mem_append_right _ List.mem_cons_self
    have trimmedNone : '\n' ∉ trimLeft after.reverse := by
      intro member
      apply lastNone
      rw [← lead_append_trimLeft after.reverse]
      exact List.mem_append_right _ member
    have something : trimLeft after.reverse ≠ [] := by
      rw [Ne, trimLeft_eq_nil_iff, lastVisible]
      decide
    rw [split, List.append_assoc, List.cons_append, compiled_append_lineFeed,
      compiled_append_lineFeed, trimLeft_append_of_not_isBlank lastVisible,
      compiled_append_of_line trimmedNone noLead, compiled_of_not_mem trimmedNone]
    exact glue_append_right _ something _
  · rw [compiled_append_of_line none noLead, compiled_of_not_mem none]

/-- The blank run at the front of a text is compiled to what is kept of it. -/
theorem compiled_eq_kept_lead (text : Text) :
    compiled text = kept (lead text) ++ compiled (trimLeft text) := by
  by_cases lineFeed : '\n' ∈ lead text
  · have cut := compiled_of_lineFeed_blank (isBlank_lead text) lineFeed [] (trimLeft text)
    rw [List.nil_append, lead_append_trimLeft, trimLeft_trimLeft] at cut
    rw [cut, kept, if_pos lineFeed]
    rfl
  · have noLineFeed : '\n' ∉ trail (lead text) ++ lead (trimLeft text) := by
      rw [trail_of_isBlank (isBlank_lead text), lead_trimLeft, List.append_nil]
      exact lineFeed
    have meets := compiled_append_of_not_mem noLineFeed
    rw [lead_append_trimLeft, compiled_of_isBlank (isBlank_lead text)] at meets
    exact meets

theorem compiled_eq_kept_trail (text : Text) :
    compiled text = compiled (trimRight text) ++ kept (trail text) := by
  by_cases lineFeed : '\n' ∈ trail text
  · have cut := compiled_of_lineFeed_blank (isBlank_trail text) lineFeed (trimRight text) []
    rw [List.append_nil, trimRight_append_trail, trimRight_trimRight] at cut
    rw [cut, kept, if_pos lineFeed, List.append_nil]
    show glue (compiled (trimRight text)) [] = _
    unfold glue
    split
    next none => exact none.symm
    · rfl
  · have noLineFeed : '\n' ∉ trail (trimRight text) ++ lead (trail text) := by
      rw [lead_of_isBlank (isBlank_trail text), trail_trimRight, List.nil_append]
      exact lineFeed
    have meets := compiled_append_of_not_mem noLineFeed
    rw [trimRight_append_trail, compiled_of_isBlank (isBlank_trail text)] at meets
    exact meets

theorem exists_compiled_cons {c : Char} (visible : isBlankChar c = false) (rest : Text) :
    ∃ more, compiled (c :: rest) = c :: more := by
  have single : trimRight [c] = [c] := by simp [trimRight, trimLeft, visible]
  have oneLine : '\n' ∉ [c] := by
    intro member
    rw [← List.mem_singleton.1 member] at visible
    exact absurd visible (by decide)
  by_cases lineFeed : '\n' ∈ lead rest
  · have cut := compiled_of_lineFeed_blank (isBlank_lead rest) lineFeed [c] (trimLeft rest)
    rw [lead_append_trimLeft, single, compiled_of_not_mem oneLine] at cut
    rw [← List.singleton_append, cut]
    unfold glue
    rw [if_neg (List.cons_ne_nil c [])]
    split
    · exact ⟨[], rfl⟩
    · exact ⟨_, rfl⟩
  · exact ⟨compiled rest, compiled_append_of_line oneLine lineFeed⟩

/-- A text with something to see in it is compiled to one with something to see in it. -/
theorem isBlank_compiled {text : Text} (visible : isBlank text = false) :
    isBlank (compiled text) = false := by
  rw [compiled_eq_kept_lead, isBlank_append]
  have something : trimLeft text ≠ [] := by
    rw [Ne, trimLeft_eq_nil_iff, visible]
    decide
  obtain ⟨c, rest, trimmed⟩ := List.exists_cons_of_ne_nil something
  have none := lead_trimLeft text
  rw [trimmed] at none
  have first := visible_of_lead_eq_nil none
  obtain ⟨more, compiledEq⟩ := exists_compiled_cons first rest
  rw [trimmed, compiledEq]
  simp [isBlank, first]

theorem isBlank_of_isBlank_compiled {text : Text} (blank : isBlank (compiled text) = true) :
    isBlank text = true := by
  by_contra visible
  rw [isBlank_compiled (Bool.eq_false_iff.2 visible)] at blank
  cases blank

theorem compiled_trimLeft_eq_nil_iff (text : Text) :
    compiled (trimLeft text) = [] ↔ isBlank text = true := by
  constructor
  · intro none
    rw [← isBlank_trimLeft]
    apply isBlank_of_isBlank_compiled
    rw [none]
    rfl
  · intro blank
    rw [trimLeft_eq_nil_iff.2 blank]
    rfl

theorem compiled_trimRight_eq_nil_iff (text : Text) :
    compiled (trimRight text) = [] ↔ isBlank text = true := by
  constructor
  · intro none
    rw [← isBlank_trimRight]
    apply isBlank_of_isBlank_compiled
    rw [none]
    rfl
  · intro blank
    rw [trimRight_eq_nil_iff.2 blank]
    rfl

/-- Where two texts meet, the blank run between them is compiled in its own way. -/
theorem compiled_append (left right : Text) :
    compiled (left ++ right)
      = compiled (trimRight left) ++ (gap left right ++ compiled (trimLeft right)) := by
  have whole : left ++ right
      = trimRight left ++ (trail left ++ lead right ++ trimLeft right) := by
    rw [List.append_assoc, lead_append_trimLeft, ← List.append_assoc, trimRight_append_trail]
  have blank : isBlank (trail left ++ lead right) = true := by
    rw [isBlank_append, isBlank_trail, isBlank_lead]
    rfl
  unfold gap
  split
  next lineFeed =>
    -- The run is dropped, and a space stands for it if there is something to see on both sides.
    have cut := compiled_of_lineFeed_blank blank lineFeed (trimRight left) (trimLeft right)
    rw [← whole, trimRight_trimRight, trimLeft_trimLeft] at cut
    rw [cut]
    unfold glue
    simp only [compiled_trimRight_eq_nil_iff, compiled_trimLeft_eq_nil_iff]
    by_cases leftBlank : isBlank left = true
    · rw [if_pos leftBlank, (compiled_trimRight_eq_nil_iff left).2 leftBlank]
      simp [leftBlank]
    · rw [if_neg leftBlank]
      by_cases rightBlank : isBlank right = true
      · rw [if_pos rightBlank, (compiled_trimLeft_eq_nil_iff right).2 rightBlank]
        simp [rightBlank]
      · simp [leftBlank, rightBlank]
  next none =>
    obtain ⟨noTrail, noLead⟩ : '\n' ∉ trail left ∧ '\n' ∉ lead right := by simpa using none
    rw [compiled_append_of_not_mem none, compiled_eq_kept_trail left, compiled_eq_kept_lead right,
      kept, kept, if_neg noTrail, if_neg noLead, List.append_assoc, List.append_assoc]

/-- Whether the blank run between two texts is compiled alike when they meet and when they are
apart. -/
def Seamless (left right : Text) : Prop :=
  kept (trail left) ++ kept (lead right) = gap left right

/-- Whether a blank run between two texts is compiled alike when the three meet and when they are
apart. -/
def Bridges (left run right : Text) : Prop :=
  kept (trail left) ++ (run ++ kept (lead right)) = gap (left ++ run) right

instance (left right : Text) : Decidable (Seamless left right) :=
  inferInstanceAs (Decidable (_ = _))

instance (left run right : Text) : Decidable (Bridges left run right) :=
  inferInstanceAs (Decidable (_ = _))

/-- Texts with a blank run on one line between them are compiled alike together and apart if and
only if the run bridges them. -/
theorem compiled_append_run_iff {run : Text} (blank : isBlank run = true) (oneLine : '\n' ∉ run)
    (left right : Text) :
    compiled (left ++ (run ++ right)) = compiled left ++ (compiled run ++ compiled right)
      ↔ Bridges left run right := by
  rw [← List.append_assoc, compiled_append, trimRight_append_of_isBlank blank,
    compiled_of_not_mem oneLine, compiled_eq_kept_trail left, compiled_eq_kept_lead right]
  unfold Bridges
  constructor
  · intro same
    rw [List.append_assoc, List.append_cancel_left_eq, ← List.append_assoc,
      ← List.append_assoc] at same
    rw [List.append_cancel_right same, List.append_assoc]
  · intro same
    rw [← same]
    simp only [List.append_assoc]

/-- What is trimmed at the front when tags go away is not compiled to anything. -/
theorem compiled_trimFront (text : Text) : compiled (trimFront text) = compiled text := by
  unfold trimFront
  split
  next lineFeed =>
    have found : '\n' ∈ lead text := by simpa using lineFeed
    rw [compiled_eq_kept_lead text, kept, if_pos found, List.nil_append]
  next => rfl

theorem trimBack_eq (text : Text) :
    trimBack text = if '\n' ∈ trail text then trimRight text else text := by
  unfold trimBack trimFront trail
  by_cases lineFeed : '\n' ∈ lead text.reverse
  · rw [if_pos (by simpa using lineFeed), if_pos (by simpa using lineFeed)]
    rfl
  · rw [if_neg (by simpa using lineFeed), if_neg (by simpa using lineFeed), List.reverse_reverse]

theorem compiled_trimBack (text : Text) : compiled (trimBack text) = compiled text := by
  rw [trimBack_eq]
  split
  next lineFeed => rw [compiled_eq_kept_trail text, kept, if_pos lineFeed, List.append_nil]
  next => rfl

theorem not_mem_trail_trimBack (text : Text) : '\n' ∉ trail (trimBack text) := by
  rw [trimBack_eq]
  split
  · rw [trail_trimRight]
    exact List.not_mem_nil
  next none => exact none

/-- Something to see is compiled between the two blank runs where it meets what is around it. -/
theorem compiled_append_append {middle : Text} (visible : isBlank middle = false)
    (left right : Text) :
    compiled (left ++ (middle ++ right))
      = compiled (trimRight left) ++ (gap left middle
        ++ (compiled (trimRight (trimLeft middle))
          ++ (gap middle right ++ compiled (trimLeft right)))) := by
  have rightVisible : isBlank (middle ++ right) = false := by
    rw [isBlank_append, visible]
    rfl
  have sameLeft : gap left (middle ++ right) = gap left middle := by
    unfold gap
    rw [lead_append_of_not_isBlank visible, rightVisible, visible]
  have sameRight : gap (trimLeft middle) right = gap middle right := by
    unfold gap
    rw [trail_trimLeft visible, isBlank_trimLeft]
  rw [compiled_append, sameLeft, trimLeft_append_of_not_isBlank visible, compiled_append, sameRight]

/-- Something to see is compiled between what is kept of the two blank runs around it. -/
theorem compiled_eq_kept {text : Text} (visible : isBlank text = false) :
    compiled text
      = kept (lead text) ++ (compiled (trimRight (trimLeft text)) ++ kept (trail text)) := by
  rw [compiled_eq_kept_lead, compiled_eq_kept_trail (trimLeft text), trail_trimLeft visible]

theorem isBlank_gap (left right : Text) : isBlank (gap left right) = true := by
  unfold gap
  split
  · split <;> rfl
  · rw [isBlank_append, isBlank_trail, isBlank_lead]
    rfl

theorem isBlank_kept {run : Text} (blank : isBlank run = true) : isBlank (kept run) = true := by
  unfold kept
  split
  · rfl
  · exact blank

/-- Next to a blank text, a blank run between two texts is compiled to nothing or as it is. -/
theorem gap_of_isBlank {left right : Text} (blank : (isBlank left || isBlank right) = true) :
    gap left right = [] ∨ kept (trail left) ++ kept (lead right) = gap left right := by
  unfold gap
  split
  · exact Or.inl rfl
  next none =>
    obtain ⟨noTrail, noLead⟩ : '\n' ∉ trail left ∧ '\n' ∉ lead right := by simpa using none
    rw [kept, kept, if_neg noTrail, if_neg noLead]
    exact Or.inr rfl

end FragmentLint.Text
