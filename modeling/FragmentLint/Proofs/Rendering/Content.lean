import FragmentLint.Proofs.Text.Compiled
import Mathlib.Data.List.Chain

/-!
Contract: what stands between two tags, as far as it is rendered, and what becomes of it when other
content is put into it.

Content is a list of texts and of other things, each of which renders something. Texts that meet
become one text (`joined`), and are then compiled together. Main statement: putting content between
other content renders what was rendered before if and only if the texts that meet are compiled alike
together and apart (`pieces_spliced_eq_iff`).

Owns: pieces, content, joining and trimming content.
Does not own: which outlines are which content.
-/

namespace FragmentLint.Rendering

/-- A part of what is rendered: a character of a string, or an item that is told by its source.
Strings that meet are one string, and an empty string is nothing. -/
inductive Piece where
  | char (c : Char)
  | item (source : Text)
deriving DecidableEq, Repr

/-- The characters of a string. -/
def string (text : Text) : List Piece := text.map .char

/-- Something between two tags: a text, or something else with its source and what it renders. -/
inductive Content where
  | text (raw : Text)
  | other (source : Text) (rendered : List Piece)
deriving DecidableEq, Repr

namespace Content

/-- What content renders. -/
def pieces : Content → List Piece
  | text raw => string (Text.compiled raw)
  | other _ rendered => rendered

/-- What several contents in a row render. -/
def piecesAll (contents : List Content) : List Piece := contents.flatMap pieces

/-- The source of content. -/
def spell : Content → Text
  | text raw => raw
  | other source _ => source

/-- The source of several contents in a row. -/
def spellAll (contents : List Content) : Text := contents.flatMap spell

/-- Contents in which texts that meet are one text; `pending` stands in front. -/
def joined (pending : Text) : List Content → List Content
  | [] => if pending = [] then [] else [text pending]
  | text raw :: rest => joined (pending ++ raw) rest
  | other source rendered :: rest =>
    (if pending = [] then [] else [text pending]) ++ other source rendered :: joined [] rest

/-- The text at the front of contents. -/
def firstText : List Content → Text
  | text raw :: _ => raw
  | _ => []

/-- What contents render behind the text at their front. -/
def behindFirst : List Content → List Piece
  | text _ :: rest => piecesAll rest
  | contents => piecesAll contents

/-- The text at the back of contents; `pending` stands in front. -/
def lastText (pending : Text) : List Content → Text
  | [] => pending
  | text raw :: rest => lastText (pending ++ raw) rest
  | other _ _ :: rest => lastText [] rest

/-- What contents render in front of the text at their back; `pending` stands in front. -/
def beforeLast (pending : Text) : List Content → List Piece
  | [] => []
  | text raw :: rest => beforeLast (pending ++ raw) rest
  | other _ rendered :: rest => string (Text.compiled pending) ++ (rendered ++ beforeLast [] rest)

/-- Whether something is text. -/
def isText : Content → Bool
  | text _ => true
  | other _ _ => false

/-- Whether two neighbours are not both text. -/
def Apart (left right : Content) : Prop := left.isText = false ∨ right.isText = false

theorem string_append (left right : Text) : string (left ++ right) = string left ++ string right :=
  List.map_append

theorem piecesAll_append (left right : List Content) :
    piecesAll (left ++ right) = piecesAll left ++ piecesAll right := List.flatMap_append

theorem piecesAll_pending (pending : Text) :
    piecesAll (if pending = [] then [] else [text pending]) = string (Text.compiled pending) := by
  split
  next none =>
    rw [none]
    rfl
  next => simp [piecesAll, pieces]

theorem piecesAll_joined_append (pending : Text) (left right : List Content) :
    piecesAll (joined pending (left ++ right))
      = beforeLast pending left ++ piecesAll (joined (lastText pending left) right) := by
  induction left generalizing pending with
  | nil => rfl
  | cons head rest inductionHypothesis =>
    cases head with
    | text raw => exact inductionHypothesis (pending ++ raw)
    | other source rendered =>
      have tail := inductionHypothesis []
      simp only [List.cons_append, joined, piecesAll_append, piecesAll_pending, beforeLast,
        lastText]
      rw [piecesAll, List.flatMap_cons, ← piecesAll, tail, pieces]
      simp only [List.append_assoc]

theorem piecesAll_joined (pending : Text) (contents : List Content) :
    piecesAll (joined pending contents)
      = beforeLast pending contents ++ string (Text.compiled (lastText pending contents)) := by
  have whole := piecesAll_joined_append pending contents []
  rw [List.append_nil, joined, piecesAll_pending] at whole
  exact whole

theorem piecesAll_eq_firstText (contents : List Content) :
    piecesAll contents = string (Text.compiled (firstText contents)) ++ behindFirst contents := by
  cases contents with
  | nil => rfl
  | cons head rest => cases head <;> rfl

/-- Contents in which no texts meet render behind a pending text what they render alone, but for the
text at their front. -/
theorem piecesAll_joined_of_apart (pending : Text) {contents : List Content}
    (apart : contents.IsChain Apart) :
    piecesAll (joined pending contents)
      = string (Text.compiled (pending ++ firstText contents)) ++ behindFirst contents := by
  induction contents generalizing pending with
  | nil =>
    rw [joined, piecesAll_pending, firstText, List.append_nil]
    · simp [behindFirst, piecesAll]
    · simp
  | cons head rest inductionHypothesis =>
    obtain ⟨neighbours, restApart⟩ := List.isChain_cons.1 apart
    cases head with
    | other source rendered =>
      have tail := inductionHypothesis [] restApart
      rw [List.nil_append, ← piecesAll_eq_firstText] at tail
      rw [joined, piecesAll_append, piecesAll_pending, piecesAll, List.flatMap_cons, ← piecesAll,
        tail]
      simp [firstText, behindFirst, piecesAll]
    | text raw =>
      have tail := inductionHypothesis (pending ++ raw) restApart
      have noText : firstText rest = [] := by
        cases rest with
        | nil => rfl
        | cons next others =>
          cases next with
          | text _ => rcases neighbours _ rfl with noText | noText <;> cases noText
          | other _ _ => rfl
      have restPieces := piecesAll_eq_firstText rest
      rw [noText] at tail restPieces
      rw [List.append_nil] at tail
      have same : behindFirst rest = piecesAll rest := restPieces.symm
      rw [joined, tail, same]
      rfl

theorem piecesAll_joined_nil {contents : List Content} (apart : contents.IsChain Apart) :
    piecesAll (joined [] contents) = piecesAll contents := by
  rw [piecesAll_joined_of_apart [] apart, List.nil_append, ← piecesAll_eq_firstText]

/-! Trimming -/

/-- Contents that are trimmed at their front, if they begin with text. -/
def trimFirst : List Content → List Content
  | text raw :: rest => text (Text.trimFront raw) :: rest
  | contents => contents

/-- Contents that are trimmed at their back, if they end with text. -/
def trimLast : List Content → List Content
  | [] => []
  | [text raw] => [text (Text.trimBack raw)]
  | head :: rest => head :: trimLast rest

/-- Contents that are trimmed at both ends. -/
def trimmed (contents : List Content) : List Content := trimLast (trimFirst contents)

theorem piecesAll_cons (head : Content) (rest : List Content) :
    piecesAll (head :: rest) = head.pieces ++ piecesAll rest := List.flatMap_cons

theorem piecesAll_trimFirst (contents : List Content) :
    piecesAll (trimFirst contents) = piecesAll contents := by
  unfold trimFirst
  split
  · rw [piecesAll_cons, piecesAll_cons, pieces, pieces, Text.compiled_trimFront]
  · rfl

theorem piecesAll_trimLast (contents : List Content) :
    piecesAll (trimLast contents) = piecesAll contents := by
  induction contents with
  | nil => rfl
  | cons head rest inductionHypothesis =>
    unfold trimLast
    split
    next none => cases none
    next single =>
      obtain ⟨rfl, rfl⟩ := List.cons.inj single
      rw [piecesAll_cons, piecesAll_cons, pieces, pieces, Text.compiled_trimBack]
    next same =>
      obtain ⟨rfl, rfl⟩ := List.cons.inj same
      rw [piecesAll_cons, piecesAll_cons, inductionHypothesis]

theorem piecesAll_trimmed (contents : List Content) :
    piecesAll (trimmed contents) = piecesAll contents :=
  (piecesAll_trimLast _).trans (piecesAll_trimFirst contents)

theorem map_isText_trimFirst (contents : List Content) :
    (trimFirst contents).map isText = contents.map isText := by
  unfold trimFirst
  split <;> rfl

theorem map_isText_trimLast (contents : List Content) :
    (trimLast contents).map isText = contents.map isText := by
  induction contents with
  | nil => rfl
  | cons head rest inductionHypothesis =>
    unfold trimLast
    split
    next none => cases none
    next single =>
      obtain ⟨rfl, rfl⟩ := List.cons.inj single
      rfl
    next same =>
      obtain ⟨rfl, rfl⟩ := List.cons.inj same
      rw [List.map_cons, List.map_cons, inductionHypothesis]

theorem map_isText_trimmed (contents : List Content) :
    (trimmed contents).map isText = contents.map isText :=
  (map_isText_trimLast _).trans (map_isText_trimFirst contents)

theorem isChain_of_map_isText {contents others : List Content}
    (kinds : others.map isText = contents.map isText) (apart : contents.IsChain Apart) :
    others.IsChain Apart := by
  have kindsApart : (others.map isText).IsChain fun left right => left = false ∨ right = false := by
    rw [kinds]
    exact (List.isChain_map isText).2 apart
  exact (List.isChain_map isText).1 kindsApart

/-! Putting contents between others -/

/-- Contents between others, trimmed and joined to them. -/
def spliced (before inner after : List Content) : List Content :=
  joined [] (before ++ (trimmed inner ++ after))

/-- Whether trimmed contents render between two texts what they render apart from them. Where the
contents are blank text or nothing, the two texts meet through them; else each of the texts meets
the text at one end of the contents. -/
def Keeps (left : Text) (contents : List Content) (right : Text) : Prop :=
  if contents.all fun content => content.isText && Text.isBlank content.spell then
    Text.Bridges left (spellAll contents) right
  else
    Text.Seamless left (firstText contents) ∧ Text.Seamless (lastText [] contents) right

instance (left : Text) (contents : List Content) (right : Text) :
    Decidable (Keeps left contents right) := by
  unfold Keeps
  infer_instance

/-- Whether a piece is a blank character. -/
def isBlankPiece : Piece → Bool
  | .char c => Text.isBlankChar c
  | .item _ => false

theorem all_isBlankPiece_string (text : Text) : (string text).all isBlankPiece
    = Text.isBlank text := by
  unfold string
  rw [List.all_map]
  rfl

/-- A blank run stops within something to see. -/
theorem takeWhile_append_of_visible {middle : List Piece}
    (visible : middle.all isBlankPiece = false)
    (rest : List Piece) :
    (middle ++ rest).takeWhile isBlankPiece = middle.takeWhile isBlankPiece := by
  induction middle with
  | nil => cases visible
  | cons head others inductionHypothesis =>
    by_cases blank : isBlankPiece head = true
    · have othersVisible : others.all isBlankPiece = false := by simpa [blank] using visible
      simp only [List.cons_append, List.takeWhile_cons, blank, if_true]
      rw [inductionHypothesis othersVisible]
    · simp only [List.cons_append, List.takeWhile_cons, blank, if_false, Bool.false_eq_true]

/-- Blank runs on the two sides of the same middle are each equal to the other one's. Where the
middle is blank as well, this is so because a run that differs from its counterpart is longer than
it. -/
theorem around_eq_iff {front front' middle back back' : List Piece}
    (blank : front.all isBlankPiece = true) (blank' : front'.all isBlankPiece = true)
    (visible : middle.all isBlankPiece = true →
      (front' = [] ∨ front = front') ∧ (back' = [] ∨ back = back')) :
    front ++ (middle ++ back) = front' ++ (middle ++ back') ↔ front = front' ∧ back = back' := by
  constructor
  · intro same
    by_cases middleBlank : middle.all isBlankPiece = true
    · -- Where all is blank, only the lengths tell; the runs can only have become shorter.
      obtain ⟨frontCase, backCase⟩ := visible middleBlank
      have lengths := congrArg List.length same
      simp only [List.length_append] at lengths
      rcases frontCase with rfl | rfl
      · rcases backCase with rfl | rfl
        · simp only [List.length_nil] at lengths
          exact ⟨List.length_eq_zero_iff.1 (by omega), List.length_eq_zero_iff.1 (by omega)⟩
        · simp only [List.length_nil] at lengths
          exact ⟨List.length_eq_zero_iff.1 (by omega), rfl⟩
      · exact ⟨rfl, List.append_cancel_left (List.append_cancel_left same)⟩
    · -- The run at the front ends where there is something to see.
      rw [Bool.not_eq_true] at middleBlank
      have fronts := congrArg (List.takeWhile isBlankPiece) same
      rw [List.takeWhile_append_of_pos (List.all_eq_true.1 blank),
        List.takeWhile_append_of_pos (List.all_eq_true.1 blank'),
        takeWhile_append_of_visible middleBlank, takeWhile_append_of_visible middleBlank] at fronts
      obtain rfl := List.append_cancel_right fronts
      exact ⟨rfl, List.append_cancel_left (List.append_cancel_left same)⟩
  · rintro ⟨rfl, rfl⟩
    rfl

theorem string_inj {left right : Text} : string left = string right ↔ left = right :=
  (List.map_injective_iff.2 fun _ _ equal => Piece.char.inj equal).eq_iff

theorem all_isBlankPiece_kept (left right : Text) :
    (string (Text.kept (Text.trail left) ++ Text.kept (Text.lead right))).all isBlankPiece
      = true := by
  rw [all_isBlankPiece_string, Text.isBlank_append, Text.isBlank_kept (Text.isBlank_trail left),
    Text.isBlank_kept (Text.isBlank_lead right)]
  rfl

/-- Where one of two texts is blank, the blank run between them renders nothing or what it renders
apart. -/
theorem string_gap (left right : Text) (blank : (Text.isBlank left || Text.isBlank right) = true) :
    string (Text.gap left right) = []
      ∨ string (Text.kept (Text.trail left) ++ Text.kept (Text.lead right))
        = string (Text.gap left right) := by
  rcases Text.gap_of_isBlank blank with none | same
  · rw [none]
    exact Or.inl rfl
  · rw [same]
    exact Or.inr rfl

/-- Two pairs of texts that meet, with something between the pairs, render what the four texts
render apart if and only if both pairs are seamless. -/
theorem meeting_eq_iff (left front back right : Text) (middle : List Piece) :
    string (Text.compiled (left ++ front)) ++ (middle ++ string (Text.compiled (back ++ right)))
        = string (Text.compiled left) ++ (string (Text.compiled front)
          ++ (middle ++ (string (Text.compiled back) ++ string (Text.compiled right))))
      ↔ Text.Seamless left front ∧ Text.Seamless back right := by
  have inside : ∀ gapLeft gapRight : Text,
      string (Text.compiled (Text.trimRight left)
        ++ (gapLeft ++ Text.compiled (Text.trimLeft front)))
        ++ (middle ++ string (Text.compiled (Text.trimRight back)
          ++ (gapRight ++ Text.compiled (Text.trimLeft right))))
      = string (Text.compiled (Text.trimRight left)) ++ ((string gapLeft
          ++ ((string (Text.compiled (Text.trimLeft front)) ++ (middle
            ++ string (Text.compiled (Text.trimRight back)))) ++ string gapRight))
        ++ string (Text.compiled (Text.trimLeft right))) := by
    intro gapLeft gapRight
    simp only [string_append, List.append_assoc]
  have apart : string (Text.compiled left) ++ (string (Text.compiled front)
      ++ (middle ++ (string (Text.compiled back) ++ string (Text.compiled right))))
      = string (Text.compiled (Text.trimRight left)
          ++ ((Text.kept (Text.trail left) ++ Text.kept (Text.lead front))
            ++ Text.compiled (Text.trimLeft front)))
        ++ (middle ++ string (Text.compiled (Text.trimRight back)
          ++ ((Text.kept (Text.trail back) ++ Text.kept (Text.lead right))
            ++ Text.compiled (Text.trimLeft right)))) := by
    rw [Text.compiled_eq_kept_trail left, Text.compiled_eq_kept_lead front,
      Text.compiled_eq_kept_trail back, Text.compiled_eq_kept_lead right]
    simp only [string_append, List.append_assoc]
  rw [Text.compiled_append, Text.compiled_append, inside, apart, inside,
    List.append_cancel_left_eq, List.append_cancel_right_eq]
  unfold Text.Seamless
  rw [@eq_comm _ (string _ ++ _), around_eq_iff (all_isBlankPiece_kept left front)
    (by rw [all_isBlankPiece_string]; exact Text.isBlank_gap left front)]
  · constructor
    · rintro ⟨first, second⟩
      exact ⟨string_inj.1 first, string_inj.1 second⟩
    · rintro ⟨first, second⟩
      rw [first, second]
      exact ⟨rfl, rfl⟩
  · intro blank
    simp only [List.all_append, Bool.and_eq_true, all_isBlankPiece_string] at blank
    have frontBlank := Text.isBlank_of_isBlank_compiled blank.1
    have backBlank := Text.isBlank_of_isBlank_compiled blank.2.2
    rw [Text.isBlank_trimLeft] at frontBlank
    rw [Text.isBlank_trimRight] at backBlank
    refine ⟨string_gap left front ?_, string_gap back right ?_⟩
    · rw [frontBlank, Bool.or_true]
    · rw [backBlank, Bool.true_or]

/-- Something to see between two texts renders what the three render apart if and only if it is
seamless on both sides. -/
theorem meeting_visible_eq_iff {middle : Text} (visible : Text.isBlank middle = false)
    (left right : Text) :
    Text.compiled (left ++ (middle ++ right))
        = Text.compiled left ++ (Text.compiled middle ++ Text.compiled right)
      ↔ Text.Seamless left middle ∧ Text.Seamless middle right := by
  have core : Text.isBlank (Text.compiled (Text.trimRight (Text.trimLeft middle))) = false := by
    apply Text.isBlank_compiled
    rw [Text.isBlank_trimRight, Text.isBlank_trimLeft]
    exact visible
  have exactly := @around_eq_iff
    (string (Text.kept (Text.trail left) ++ Text.kept (Text.lead middle)))
    (string (Text.gap left middle))
    (string (Text.compiled (Text.trimRight (Text.trimLeft middle))))
    (string (Text.kept (Text.trail middle) ++ Text.kept (Text.lead right)))
    (string (Text.gap middle right)) (all_isBlankPiece_kept left middle)
    (by rw [all_isBlankPiece_string]; exact Text.isBlank_gap left middle)
    (by
      intro blank
      rw [all_isBlankPiece_string, core] at blank
      cases blank)
  have apart : Text.compiled left ++ (Text.compiled middle ++ Text.compiled right)
      = Text.compiled (Text.trimRight left)
        ++ ((Text.kept (Text.trail left) ++ Text.kept (Text.lead middle))
          ++ (Text.compiled (Text.trimRight (Text.trimLeft middle))
            ++ ((Text.kept (Text.trail middle) ++ Text.kept (Text.lead right))
              ++ Text.compiled (Text.trimLeft right)))) := by
    rw [Text.compiled_eq_kept_trail left, Text.compiled_eq_kept visible,
      Text.compiled_eq_kept_lead right]
    simp only [List.append_assoc]
  rw [Text.compiled_append_append visible left right, apart, List.append_cancel_left_eq]
  unfold Text.Seamless
  constructor
  · intro same
    rw [← List.append_assoc (Text.compiled _), ← List.append_assoc (Text.compiled _),
      ← List.append_assoc _ _ (Text.compiled (Text.trimLeft right)),
      ← List.append_assoc _ _ (Text.compiled (Text.trimLeft right)),
      List.append_cancel_right_eq] at same
    have strings := congrArg string same.symm
    simp only [string_append] at strings exactly
    obtain ⟨first, second⟩ := exactly.1 (by simpa only [List.append_assoc] using strings)
    rw [← string_append] at first second
    exact ⟨string_inj.1 first, string_inj.1 second⟩
  · rintro ⟨first, second⟩
    rw [first, second]

/-- Contents that are not only blank text: what they render behind a pending text, and the text at
their back, which is not affected by it. -/
theorem exists_beforeLast {contents : List Content} (apart : contents.IsChain Apart)
    (something : (contents.any fun content => !content.isText) = true) :
    ∃ middle, ∀ pending, beforeLast pending contents
        = string (Text.compiled (pending ++ firstText contents)) ++ middle
      ∧ lastText pending contents = lastText [] contents := by
  cases contents with
  | nil => cases something
  | cons head rest =>
    cases head with
    | other source rendered =>
      refine ⟨rendered ++ beforeLast [] rest, ?_⟩
      intro pending
      rw [firstText, List.append_nil]
      · exact ⟨rfl, rfl⟩
      · simp
    | text raw =>
      cases rest with
      | nil => cases something
      | cons next others =>
        cases next with
        | text more =>
          have neighbours := (List.isChain_cons.1 apart).1 (text more) rfl
          rcases neighbours with noText | noText <;> cases noText
        | other source rendered => exact ⟨rendered ++ beforeLast [] others, fun pending
          => ⟨rfl, rfl⟩⟩

/-- A text that is alone and trimmed is on one line where it is blank. -/
theorem not_mem_of_trimmed_eq_text {contents : List Content} {run : Text}
    (single : trimmed contents = [text run]) (blank : Text.isBlank run = true) : '\n' ∉ run := by
  have kinds := map_isText_trimmed contents
  rw [single] at kinds
  obtain ⟨raw, rfl⟩ : ∃ raw, contents = [text raw] := by
    match contents, kinds with
    | [text raw], _ => exact ⟨raw, rfl⟩
  have same : Text.trimBack (Text.trimFront raw) = run := text.inj (List.cons.inj single).1
  have none := Text.not_mem_trail_trimBack (Text.trimFront raw)
  rw [same, Text.trail_of_isBlank blank] at none
  exact none

theorem eq_nil_or_text_of_apart {contents : List Content} (apart : contents.IsChain Apart)
    (onlyText : (contents.any fun content => !content.isText) = false) :
    contents = [] ∨ ∃ raw, contents = [text raw] := by
  match contents, apart, onlyText with
  | [], _, _ => exact Or.inl rfl
  | [text raw], _, _ => exact Or.inr ⟨raw, rfl⟩
  | text raw :: text more :: rest, apart, _ =>
    have neighbours := (List.isChain_cons.1 apart).1 (text more) rfl
    rcases neighbours with noText | noText <;> cases noText

/-- Content put between other content renders what was rendered before if and only if the texts that
meet are compiled alike together and apart. -/
theorem pieces_spliced_eq_iff {before inner after : List Content}
    (beforeApart : before.IsChain Apart)
    (innerApart : inner.IsChain Apart) (afterApart : after.IsChain Apart) :
    piecesAll (spliced before inner after)
        = piecesAll before ++ (piecesAll inner ++ piecesAll after)
      ↔ Keeps (lastText [] before) (trimmed inner) (firstText after) := by
  have trimmedApart := isChain_of_map_isText (map_isText_trimmed inner) innerApart
  have beforePieces : piecesAll before
      = beforeLast [] before ++ string (Text.compiled (lastText [] before)) := by
    rw [← piecesAll_joined_nil beforeApart, piecesAll_joined]
  have trimmedPieces : piecesAll (trimmed inner)
      = beforeLast [] (trimmed inner) ++ string (Text.compiled (lastText [] (trimmed inner))) := by
    rw [← piecesAll_joined_nil trimmedApart, piecesAll_joined]
  rw [← piecesAll_trimmed inner]
  generalize contentsAre : trimmed inner = contents at trimmedApart trimmedPieces ⊢
  unfold spliced
  rw [contentsAre, piecesAll_joined_append, piecesAll_joined_append,
    piecesAll_joined_of_apart _ afterApart, beforePieces, piecesAll_eq_firstText after]
  generalize lastText [] before = left
  generalize firstText after = right
  have ends : beforeLast [] before ++ (beforeLast left contents
      ++ (string (Text.compiled (lastText left contents ++ right)) ++ behindFirst after))
        = beforeLast [] before ++ string (Text.compiled left)
          ++ (piecesAll contents ++ (string (Text.compiled right) ++ behindFirst after))
      ↔ beforeLast left contents ++ string (Text.compiled (lastText left contents ++ right))
        = string (Text.compiled left) ++ (piecesAll contents ++ string (Text.compiled right)) := by
    rw [List.append_assoc, List.append_cancel_left_eq, ← List.append_assoc, ← List.append_assoc,
      ← List.append_assoc, List.append_cancel_right_eq, List.append_assoc]
  rw [ends]
  cases kind : contents.any fun content => !content.isText with
  | true =>
    -- Each of the two texts around the contents meets its own end of them.
    have other : (contents.all fun content => content.isText && Text.isBlank content.spell)
        = false := by
      rw [List.any_eq_true] at kind
      obtain ⟨content, member, isOther⟩ := kind
      refine List.all_eq_false.2 ⟨content, member, ?_⟩
      rw [Bool.not_eq_true'] at isOther
      rw [isOther, Bool.false_and]
      exact Bool.false_ne_true
    obtain ⟨middle, sides⟩ := exists_beforeLast trimmedApart kind
    rw [Keeps, other, if_neg Bool.false_ne_true, trimmedPieces, (sides left).1, (sides left).2,
      (sides []).1, List.nil_append, ← meeting_eq_iff left (firstText contents) _ right middle]
    simp only [List.append_assoc]
  | false =>
    -- Nothing or a single text is left, through which the texts around it may meet.
    rcases eq_nil_or_text_of_apart trimmedApart kind with rfl | ⟨run, rfl⟩
    · have meet := @Text.compiled_append_run_iff [] rfl List.not_mem_nil left right
      rw [← string_inj, string_append, string_append] at meet
      exact meet
    · have whole : beforeLast left [text run]
      ++ string (Text.compiled (lastText left [text run] ++ right))
          = string (Text.compiled (left ++ (run ++ right))) := by
        rw [← List.append_assoc left]
        rfl
      have single : piecesAll [text run] = string (Text.compiled run) := List.append_nil _
      rw [whole, single, ← string_append, ← string_append, string_inj]
      cases blank : Text.isBlank run with
      | true =>
        have allBlank : ([text run].all fun content => content.isText && Text.isBlank content.spell)
            = true := by simp [isText, spell, blank]
        rw [Keeps, allBlank, if_pos rfl,
          Text.compiled_append_run_iff blank (not_mem_of_trimmed_eq_text contentsAre blank)]
        rw [show spellAll [text run] = run from List.append_nil _]
      | false =>
        have notBlank : ([text run].all fun content => content.isText && Text.isBlank content.spell)
            = false := by simp [isText, spell, blank]
        rw [Keeps, notBlank, if_neg Bool.false_ne_true, meeting_visible_eq_iff blank]
        rfl

end Content

end FragmentLint.Rendering
