import FragmentLint.Pragma
import FragmentLint.Proofs.Text.Padding

/-!
Contract: which names fragments have in a file, said without the search for them.

A comment is annotated if its body can be written with the mark `@jsx`, white space behind that, and
a value. Of the annotated comments the first one counts, and in it the first mark that has a value.
The search finds exactly these (`annotation?_eq_some_iff`, `annotation?_eq_none_iff`), whatever marks
without a value stand in front. Main statement: `resolve_follows_annotations`.

Does not own: which comments a source has.
-/

namespace FragmentLint

namespace Text

/-- Whether a text begins a run of some characters and what follows does not go on with it. -/
def IsRun (holds : Char → Bool) (run rest : Text) : Prop :=
  run.all holds = true ∧ ∀ c ∈ rest.head?, holds c = false

theorem isRun_takeWhile (holds : Char → Bool) (text : Text) :
    IsRun holds (text.takeWhile holds) (text.dropWhile holds) := by
  refine ⟨List.all_takeWhile, ?_⟩
  intro c first
  have stops := List.head?_dropWhile_not holds text
  rw [Option.mem_def.1 first] at stops
  exact stops

/-- A run is all that can be taken from the front. -/
theorem IsRun.takeWhile_append {holds : Char → Bool} {run rest : Text} (isRun : IsRun holds run rest) :
    (run ++ rest).takeWhile holds = run := by
  obtain ⟨all, stops⟩ := isRun
  rw [List.takeWhile_append_of_pos (List.all_eq_true.1 all)]
  cases rest with
  | nil => exact List.append_nil run
  | cons c rest =>
    rw [List.takeWhile_cons_of_neg (by simp [stops c rfl]), List.append_nil]

end Text

namespace Pragmas

/-! ## Annotations -/

/-- Whether a body can be written as some text, the mark of an annotation, white space, a value, and
some more text. The value is not empty and goes on until white space or the end. -/
def Annotates (body front value : Text) : Prop :=
  ∃ gap back, body = front ++ ("@jsx".toList ++ (gap ++ (value ++ back)))
    ∧ gap ≠ [] ∧ Text.isBlank gap = true
    ∧ value ≠ [] ∧ Text.IsRun (!Text.isBlankChar ·) value back

theorem annotates_cons_iff {c d : Char} {body front value : Text} :
    Annotates (c :: body) (d :: front) value ↔ c = d ∧ Annotates body front value := by
  unfold Annotates
  simp only [List.cons_append, List.cons.injEq]
  constructor
  · rintro ⟨gap, back, ⟨same, written⟩, isValue⟩
    exact ⟨same, gap, back, written, isValue⟩
  · rintro ⟨same, gap, back, written, isValue⟩
    exact ⟨gap, back, ⟨same, written⟩, isValue⟩

/-- A value behind white space is what is left of the text when that is trimmed, up to the next white
space. -/
theorem lead_and_trimLeft_of_gap {gap value back : Text} (blank : Text.isBlank gap = true)
    (occupied : value ≠ []) (isRun : Text.IsRun (!Text.isBlankChar ·) value back) :
    Text.lead (gap ++ (value ++ back)) = gap
      ∧ Text.trimLeft (gap ++ (value ++ back)) = value ++ back := by
  obtain ⟨c, rest, rfl⟩ := List.exists_cons_of_ne_nil occupied
  have visible : Text.isBlankChar c = false := by
    simpa using List.all_eq_true.1 isRun.1 c List.mem_cons_self
  constructor
  · rw [Text.lead_append_of_isBlank blank, List.cons_append, Text.lead_cons_of_visible visible,
      List.append_nil]
  · rw [Text.trimLeft_append_of_isBlank blank, List.cons_append]
    unfold Text.trimLeft
    rw [List.dropWhile_cons_of_neg (by simp [visible])]

/-- What is found at the front of a text is the value of an annotation that it begins with. -/
theorem annotatedHere?_eq_some_iff {text value : Text} :
    annotatedHere? text = some value ↔ Annotates text [] value := by
  unfold annotatedHere? Annotates
  simp only [List.nil_append]
  constructor
  · intro found
    split at found
    next begins =>
      obtain ⟨behind, rfl⟩ := List.isPrefixOf_iff_prefix.1 begins
      rw [List.drop_left] at found
      split at found
      next => cases found
      next occupied =>
        obtain rfl := Option.some.inj found
        simp only [Bool.or_eq_true, List.isEmpty_iff, not_or] at occupied
        refine ⟨Text.lead behind, (Text.trimLeft behind).dropWhile (!Text.isBlankChar ·), ?_,
          occupied.1, Text.isBlank_lead behind, occupied.2, Text.isRun_takeWhile _ _⟩
        rw [List.takeWhile_append_dropWhile, Text.lead_append_trimLeft]
    next => cases found
  · rintro ⟨gap, back, rfl, wide, blank, occupied, isRun⟩
    obtain ⟨leadEq, trimEq⟩ := lead_and_trimLeft_of_gap blank occupied isRun
    rw [if_pos (List.isPrefixOf_iff_prefix.2 (List.prefix_append _ _)), List.drop_left, leadEq,
      trimEq, isRun.takeWhile_append, if_neg (by simp [wide, occupied])]

/-- A body without characters is not annotated. -/
theorem not_annotates_nil (front value : Text) : ¬ Annotates [] front value := by
  rintro ⟨gap, back, written, -⟩
  have empty := List.append_eq_nil_iff.1 written.symm
  exact absurd (List.append_eq_nil_iff.1 empty.2).1 (by decide)

/-- Nothing is found in a body if and only if there is no annotation in it. -/
theorem annotation?_eq_none_iff {body : Text} :
    annotation? body = none ↔ ∀ front value, ¬ Annotates body front value := by
  induction body with
  | nil => exact iff_of_true rfl not_annotates_nil
  | cons c rest inductionHypothesis =>
    unfold annotation?
    cases here : annotatedHere? (c :: rest) with
    | some value =>
      refine iff_of_false (by simp) ?_
      intro nowhere
      exact nowhere [] value (annotatedHere?_eq_some_iff.1 here)
    | none =>
      apply inductionHypothesis.trans
      constructor
      · intro nowhere front value annotates
        cases front with
        | nil =>
          rw [annotatedHere?_eq_some_iff.2 annotates] at here
          cases here
        | cons d front => exact nowhere front value (annotates_cons_iff.1 annotates).2
      · intro nowhere front value annotates
        exact nowhere (c :: front) value (annotates_cons_iff.2 ⟨rfl, annotates⟩)

/-- What is found in a body is the value of the annotation with the shortest text in front of it. -/
theorem annotation?_eq_some_iff {body value : Text} :
    annotation? body = some value ↔ ∃ front, Annotates body front value
      ∧ ∀ other found, Annotates body other found → front.length ≤ other.length := by
  induction body with
  | nil =>
    refine iff_of_false (by simp [annotation?]) ?_
    rintro ⟨front, annotates, -⟩
    exact not_annotates_nil front value annotates
  | cons c rest inductionHypothesis =>
    unfold annotation?
    cases here : annotatedHere? (c :: rest) with
    | some first =>
      have begins := annotatedHere?_eq_some_iff.1 here
      constructor
      · intro same
        obtain rfl := Option.some.inj same
        exact ⟨[], begins, fun other found annotates => Nat.zero_le _⟩
      · rintro ⟨front, annotates, shortest⟩
        -- Nothing is shorter than nothing, so the annotation found stands at the front as well.
        obtain rfl : front = [] := List.length_eq_zero_iff.1 (Nat.le_zero.1 (shortest [] first begins))
        have same := annotatedHere?_eq_some_iff.2 annotates
        rw [here] at same
        exact same
    | none =>
      have later {front found : Text} (annotates : Annotates (c :: rest) front found) :
          ∃ shorter, front = c :: shorter ∧ Annotates rest shorter found := by
        cases front with
        | nil =>
          rw [annotatedHere?_eq_some_iff.2 annotates] at here
          cases here
        | cons d shorter =>
          obtain ⟨rfl, inRest⟩ := annotates_cons_iff.1 annotates
          exact ⟨shorter, rfl, inRest⟩
      apply inductionHypothesis.trans
      constructor
      · rintro ⟨front, annotates, shortest⟩
        refine ⟨c :: front, annotates_cons_iff.2 ⟨rfl, annotates⟩, ?_⟩
        intro other found annotatesToo
        obtain ⟨shorter, rfl, inRest⟩ := later annotatesToo
        exact Nat.succ_le_succ (shortest shorter found inRest)
      · rintro ⟨front, annotates, shortest⟩
        obtain ⟨shorter, rfl, inRest⟩ := later annotates
        refine ⟨shorter, inRest, ?_⟩
        intro other found annotatesToo
        exact Nat.le_of_succ_le_succ
          (shortest (c :: other) found (annotates_cons_iff.2 ⟨rfl, annotatesToo⟩))

/-- A mark without white space behind it is passed over, and so is one at the end. -/
example : annotation? "* @jsxFrag F @jsx h.x @jsx".toList = some "h.x".toList := by decide

/-! ## Names -/

/-- Whether a value is the wanted one, or the usual one because none is wanted; an empty one does not
count. -/
inductive Chosen (wanted : Option Text) (usual : Text) : Text → Prop where
  | wanted {value : Text} (isWanted : wanted = some value) (occupied : value ≠ []) :
      Chosen wanted usual value
  | usual (none : ∀ value, wanted = some value → value = []) : Chosen wanted usual usual

theorem chosen_iff {wanted : Option Text} {usual value : Text} :
    Chosen wanted usual value ↔ (wanted.filter (!·.isEmpty)).getD usual = value := by
  constructor
  · intro chosen
    cases chosen with
    | wanted isWanted occupied => simp [isWanted, Option.filter, occupied]
    | usual none =>
      cases wanted with
      | none => rfl
      | some other => simp [none other rfl, Option.filter]
  · rintro rfl
    cases wanted with
    | none => exact .usual (by simp)
    | some other =>
      by_cases empty : other = []
      · subst empty
        exact .usual (by simp)
      · have kept : ((some other).filter (!·.isEmpty)).getD usual = other := by
          simp [Option.filter, empty]
        rw [kept]
        exact .wanted rfl empty

/-- Whether a value is what is to stand in front of the dot, be it an identifier or not: the value of
the first annotation, up to a dot if there is one, or without annotations what the settings say. -/
inductive NamesReact (comments : List Comment) (settings : Settings) : Text → Prop where
  | annotated {earlier later : List Comment} {comment : Comment} {front value name back : Text}
      (split : comments = earlier ++ comment :: later)
      (first : ∀ before ∈ earlier, ∀ front value, ¬ Annotates before.body front value)
      (annotates : Annotates comment.body front value)
      (shortest : ∀ other found, Annotates comment.body other found → front.length ≤ other.length)
      (whole : value = name ++ back) (upToDot : Text.IsRun (· != '.') name back) :
      NamesReact comments settings name
  | configured {value : Text}
      (none : ∀ comment ∈ comments, ∀ front value, ¬ Annotates comment.body front value)
      (chosen : Chosen (settings.react.bind (·.pragma)) "React".toList value) :
      NamesReact comments settings value

/-- Whether a value is what is to stand behind the dot, be it an identifier or not. -/
def NamesFragment (settings : Settings) (value : Text) : Prop :=
  Chosen (settings.react.bind (·.fragment)) "Fragment".toList value

/-- Whether a character may be the first one of an identifier. -/
def BeginsIdentifier (c : Char) : Prop :=
  'A' ≤ c ∧ c ≤ 'Z' ∨ 'a' ≤ c ∧ c ≤ 'z' ∨ c = '_' ∨ c = '$'

/-- Whether a name is made of plain letters, digits, `_` and `$`, and does not begin with a digit. -/
def IsIdentifier (name : Text) : Prop :=
  ∃ first rest, name = first :: rest ∧ BeginsIdentifier first
    ∧ ∀ c ∈ rest, BeginsIdentifier c ∨ '0' ≤ c ∧ c ≤ '9'

theorem isStart_iff {c : Char} : isStart c = true ↔ BeginsIdentifier c := by
  unfold isStart BeginsIdentifier Char.isAlpha Char.isUpper Char.isLower
  simp only [Bool.or_eq_true, Bool.and_eq_true, decide_eq_true_eq, beq_iff_eq, Char.le_def,
    or_assoc, ge_iff_le]

theorem isIdentifier_iff {name : Text} : isIdentifier name = true ↔ IsIdentifier name := by
  cases name with
  | nil => exact iff_of_false Bool.false_ne_true (by simp [IsIdentifier])
  | cons first rest =>
    unfold isIdentifier IsIdentifier Char.isDigit
    simp only [Bool.and_eq_true, Bool.or_eq_true, decide_eq_true_eq, List.all_eq_true, isStart_iff,
      List.cons.injEq, Char.le_def]
    constructor
    · rintro ⟨starts, others⟩
      exact ⟨first, rest, ⟨rfl, rfl⟩, starts, others⟩
    · rintro ⟨other, others, ⟨rfl, rfl⟩, starts, others⟩
      exact ⟨starts, others⟩

/-- An identifier has a character, and none of its characters is a dot. -/
theorem IsIdentifier.ne_nil_and_not_mem {name : Text} (isIdentifier : IsIdentifier name) :
    name ≠ [] ∧ '.' ∉ name := by
  obtain ⟨first, rest, rfl, starts, others⟩ := isIdentifier
  have notDot : ¬ BeginsIdentifier '.' := by
    unfold BeginsIdentifier
    decide
  refine ⟨List.cons_ne_nil first rest, ?_⟩
  intro member
  rcases List.mem_cons.1 member with rfl | inRest
  · exact notDot starts
  · rcases others '.' inRest with starts | ⟨digit, -⟩
    · exact notDot starts
    · exact absurd digit (by decide)

/-- The first annotation that is found in a list of comments is the first one that is there. -/
theorem findSome?_annotation?_eq_some_iff {comments : List Comment} {value : Text} :
    (comments.findSome? fun comment => annotation? comment.body) = some value ↔
      ∃ earlier comment later, comments = earlier ++ comment :: later
        ∧ (∀ before ∈ earlier, ∀ front value, ¬ Annotates before.body front value)
        ∧ ∃ front, Annotates comment.body front value
          ∧ ∀ other found, Annotates comment.body other found → front.length ≤ other.length := by
  simp only [List.findSome?_eq_some_iff, annotation?_eq_some_iff, annotation?_eq_none_iff]
  constructor
  · rintro ⟨earlier, comment, later, split, annotates, first⟩
    exact ⟨earlier, comment, later, split, first, annotates⟩
  · rintro ⟨earlier, comment, later, split, first, annotates⟩
    exact ⟨earlier, comment, later, split, annotates, first⟩

theorem findSome?_annotation?_eq_none_iff {comments : List Comment} :
    (comments.findSome? fun comment => annotation? comment.body) = none ↔
      ∀ comment ∈ comments, ∀ front value, ¬ Annotates comment.body front value := by
  simp only [List.findSome?_eq_none_iff, annotation?_eq_none_iff]

/-- Exactly one value is to stand in front of the dot, and it is the one that is validated. -/
theorem exists_namesReact (comments : List Comment) (settings : Settings) :
    ∃ react, (∀ value, NamesReact comments settings value ↔ value = react)
      ∧ resolveReact comments settings = validate .react react := by
  unfold resolveReact
  refine ⟨_, ?_, rfl⟩
  intro name
  constructor
  · intro names
    cases names with
    | annotated split first annotates shortest whole upToDot =>
      have found := findSome?_annotation?_eq_some_iff.2
        ⟨_, _, _, split, first, _, annotates, shortest⟩
      rw [found, whole]
      exact upToDot.takeWhile_append.symm
    | configured none chosen =>
      rw [findSome?_annotation?_eq_none_iff.2 none]
      exact (chosen_iff.1 chosen).symm
  · rintro rfl
    cases found : comments.findSome? fun comment => annotation? comment.body with
    | some value =>
      obtain ⟨earlier, comment, later, split, first, front, annotates, shortest⟩ :=
        findSome?_annotation?_eq_some_iff.1 found
      exact .annotated split first annotates shortest List.takeWhile_append_dropWhile.symm
        (Text.isRun_takeWhile _ value)
    | none => exact .configured (findSome?_annotation?_eq_none_iff.1 found) (chosen_iff.2 rfl)

theorem exists_namesFragment (settings : Settings) :
    ∃ fragment, (∀ value, NamesFragment settings value ↔ value = fragment)
      ∧ resolveFragment settings = validate .fragment fragment := by
  refine ⟨_, ?_, rfl⟩
  intro value
  exact chosen_iff.trans eq_comm

/-! ## Validation -/

theorem validate_eq_error_iff {role : PragmaRole} {value : Text} {invalid : InvalidPragma} :
    validate role value = .error invalid ↔ isIdentifier value = false ∧ invalid = ⟨role, value⟩ := by
  unfold validate
  split
  next identifier => simp [identifier]
  next other => simp [other, eq_comm]

theorem role_of_validate {role : PragmaRole} {value : Text} {invalid : InvalidPragma}
    (refused : validate role value = .error invalid) : invalid.role = role :=
  congrArg InvalidPragma.role (validate_eq_error_iff.1 refused).2

theorem resolve_eq_ok_iff {comments : List Comment} {settings : Settings} {pragmas : Pragmas} :
    resolve comments settings = .ok pragmas ↔
      resolveReact comments settings = .ok pragmas.react
        ∧ resolveFragment settings = .ok pragmas.fragment := by
  obtain ⟨react, fragment⟩ := pragmas
  unfold resolve
  cases resolveReact comments settings with
  | error invalid => simp [bind, Except.bind]
  | ok found =>
    cases resolveFragment settings with
    | error invalid => simp [bind, Except.bind]
    | ok other => simp [bind, Except.bind, pure, Except.pure]

/-- What is wrong with the name in front of the dot is found first. -/
theorem resolve_eq_error_iff {comments : List Comment} {settings : Settings}
    {invalid : InvalidPragma} :
    resolve comments settings = .error invalid ↔
      resolveReact comments settings = .error invalid
        ∨ (∃ react, resolveReact comments settings = .ok react)
          ∧ resolveFragment settings = .error invalid := by
  unfold resolve
  cases resolveReact comments settings with
  | error other => simp [bind, Except.bind]
  | ok found =>
    cases resolveFragment settings with
    | error other => simp [bind, Except.bind]
    | ok other => simp [bind, Except.bind, pure, Except.pure]

/-- Whether an answer takes a value for a name if and only if it is an identifier, and else is an
error about that value. -/
structure Judges (role : PragmaRole) (value : Text) (answer : Except InvalidPragma Text) : Prop where
  accepted : ∀ name, answer = .ok name ↔ IsIdentifier value ∧ name = value
  refused : ∀ invalid, answer = .error invalid ↔ ¬ IsIdentifier value ∧ invalid = ⟨role, value⟩

theorem judges_validate (role : PragmaRole) (value : Text) :
    Judges role value (validate role value) := by
  constructor
  · intro name
    rw [validate_eq_ok_iff, isIdentifier_iff]
  · intro invalid
    rw [validate_eq_error_iff, ← isIdentifier_iff, Bool.not_eq_true]

/-- The names of fragments. In front of the dot stands what the first annotation in the first
annotated comment says, up to a dot; without one what the settings say, and without that `React`.
Behind it stands what the settings say, else `Fragment`. Each of the two is a name if it is an
identifier, and refused under its own role if not; if both are refused, the error is about the one in
front. So names that are found have a character and no dot. -/
theorem resolve_follows_annotations (comments : List Comment) (settings : Settings) :
    ∃ react fragment,
      (∀ value, NamesReact comments settings value ↔ value = react)
      ∧ (∀ value, NamesFragment settings value ↔ value = fragment)
      ∧ Judges .react react (resolveReact comments settings)
      ∧ Judges .fragment fragment (resolveFragment settings)
      ∧ (∀ invalid, resolve comments settings = .error invalid ↔
          ¬ IsIdentifier react ∧ invalid = ⟨.react, react⟩
            ∨ IsIdentifier react ∧ ¬ IsIdentifier fragment ∧ invalid = ⟨.fragment, fragment⟩)
      ∧ (∀ pragmas, resolve comments settings = .ok pragmas ↔
          IsIdentifier react ∧ IsIdentifier fragment ∧ pragmas = ⟨react, fragment⟩)
      ∧ ∀ pragmas, resolve comments settings = .ok pragmas →
          ∀ name ∈ [pragmas.react, pragmas.fragment],
            IsIdentifier name ∧ name ≠ [] ∧ '.' ∉ name := by
  obtain ⟨react, namesReact, reactEq⟩ := exists_namesReact comments settings
  obtain ⟨fragment, namesFragment, fragmentEq⟩ := exists_namesFragment settings
  have judgesReact := judges_validate .react react
  have judgesFragment := judges_validate .fragment fragment
  rw [← reactEq] at judgesReact
  rw [← fragmentEq] at judgesFragment
  have resolved (pragmas : Pragmas) : resolve comments settings = .ok pragmas ↔
      IsIdentifier react ∧ IsIdentifier fragment ∧ pragmas = ⟨react, fragment⟩ := by
    rw [resolve_eq_ok_iff, judgesReact.accepted, judgesFragment.accepted]
    constructor
    · rintro ⟨⟨first, rfl⟩, second, rfl⟩
      exact ⟨first, second, rfl⟩
    · rintro ⟨first, second, rfl⟩
      exact ⟨⟨first, rfl⟩, second, rfl⟩
  refine ⟨react, fragment, namesReact, namesFragment, judgesReact, judgesFragment, ?_, resolved, ?_⟩
  · intro invalid
    rw [resolve_eq_error_iff, judgesReact.refused, judgesFragment.refused]
    simp only [judgesReact.accepted, exists_eq_right]
  · intro pragmas isResolved name member
    obtain ⟨isReact, isFragment, rfl⟩ := (resolved pragmas).1 isResolved
    have isIdentifier : IsIdentifier name := by
      simp only [List.mem_cons, List.not_mem_nil, or_false] at member
      rcases member with rfl | rfl
      · exact isReact
      · exact isFragment
    exact ⟨isIdentifier, isIdentifier.ne_nil_and_not_mem⟩

end Pragmas

end FragmentLint
