import FragmentLint.Grammar.Name
import Mathlib.Data.List.TakeWhile

/-!
Contract: a text without its white space and comments, and what is left of trivia that was read.

Where a piece of trivia ends depends on nothing but the character behind it. So trivia that was read
off a text is trivia as well in any other text that goes on in the same way, and all of it is
taken out there. Main statement: `withoutTrivia_spellAll`.

Owns: `Text.withoutTrivia`.
Does not own: the names that trivia stands in.
-/

namespace FragmentLint

open Grammar

namespace Text

/-- A text without a number of characters at its front, and without the trivia behind them. -/
def withoutTriviaBehind : (skipped : Nat) → Text → Text
  | _, [] => []
  | skipped + 1, _ :: rest => withoutTriviaBehind skipped rest
  | 0, c :: rest =>
    match Trivia.next? true (c :: rest) with
    | some (piece, _) => withoutTriviaBehind (piece.spell.length - 1) rest
    | none => c :: withoutTriviaBehind 0 rest

/-- A text without its white space, its comments and its hidden lines. -/
def withoutTrivia (text : Text) : Text := withoutTriviaBehind 0 text

example : withoutTrivia "a /*x*/ . b".toList = "a.b".toList := by decide

theorem withoutTriviaBehind_append (front rest : Text) :
    withoutTriviaBehind front.length (front ++ rest) = withoutTrivia rest := by
  induction front with
  | nil => rfl
  | cons c front inductionHypothesis =>
    rw [List.cons_append, List.length_cons, withoutTriviaBehind]
    exact inductionHypothesis

end Text

namespace Grammar.Trivia

open Text (withoutTrivia withoutTriviaBehind)

/-! ## One piece -/

/-- Whether a piece of trivia can be written in front of a text and ends there. -/
inductive Fits : Trivia → Text → Prop where
  | space {c : Char} {run rest : Text} (blank : ∀ d ∈ c :: run, isSpace d = true)
      (ends : ∀ d ∈ rest.head?, isSpace d = false) : Fits (.space (c :: run)) rest
  | line {body rest : Text} (onLine : ∀ d ∈ body, endsLine d = false)
      (ends : ∀ d ∈ rest.head?, endsLine d = true) : Fits (.line body) rest
  | block {body rest : Text}
      (closed : ∀ other, splitBlock? (body ++ '*' :: '/' :: other) = some (body, other)) :
      Fits (.block body) rest
  | hidden {mark tail rest : Text} (marked : mark = "<!--".toList ∨ mark = "-->".toList)
      (onLine : ∀ d ∈ tail, isLineFeed d = false)
      (ends : ∀ d ∈ rest.head?, isLineFeed d = true) : Fits (.hidden (mark ++ tail)) rest

/-- Where a run of characters ends, the next character is of another class. -/
theorem head?_dropWhile {test : Char → Bool} (text : Text) :
    ∀ d ∈ (text.dropWhile test).head?, test d = false := by
  intro d first
  have fails := List.head?_dropWhile_not test text
  rw [Option.mem_def.1 first] at fails
  exact fails

theorem takeWhile_of_head? {test : Char → Bool} {run rest : Text} (all : ∀ d ∈ run, test d = true)
    (ends : ∀ d ∈ rest.head?, test d = false) :
    (run ++ rest).takeWhile test = run ∧ (run ++ rest).dropWhile test = rest := by
  rw [List.takeWhile_append_of_pos all, List.dropWhile_append_of_pos all]
  cases rest with
  | nil => simp
  | cons d rest =>
    have fails := ends d rfl
    simp [fails]

/-- A block comment ends at the first mark that closes it, whatever follows. -/
theorem splitBlock?_append {text body after : Text} (split : splitBlock? text = some (body, after))
    (other : Text) : splitBlock? (body ++ '*' :: '/' :: other) = some (body, other) := by
  fun_induction splitBlock? text generalizing body after with
  | case1 => cases split
  | case2 rest =>
    cases split
    rfl
  | case3 c rest noMark inductionHypothesis =>
    obtain ⟨⟨inner, behind⟩, found, equal⟩ := Option.map_eq_some_iff.1 split
    cases equal
    rw [List.cons_append, splitBlock?, inductionHypothesis found, Option.map_some]
    -- A mark in front of the body would have closed the comment in the first text too.
    rintro others rfl slash
    cases inner with
    | nil => cases slash
    | cons d inner =>
      obtain ⟨rfl, -⟩ := List.cons.inj slash
      exact noMark _ rfl (append_of_splitBlock? found).symm

theorem nextPlain?_eq_some_iff {text rest : Text} {piece : Trivia} :
    nextPlain? text = some (piece, rest) ↔
      text = piece.spell ++ rest ∧ Fits piece rest ∧ ∀ hidden, piece ≠ .hidden hidden := by
  constructor
  · intro found
    refine ⟨(spell_of_nextPlain? found).symm, ?_⟩
    unfold nextPlain? at found
    split at found
    next rest =>
      cases found
      refine ⟨.line ?_ ?_, by simp⟩
      · intro d inBody
        simpa using List.mem_takeWhile_imp inBody
      · intro d first
        simpa using head?_dropWhile _ d first
    · split at found
      next split =>
        cases found
        exact ⟨.block (splitBlock?_append split), by simp⟩
      next => cases found
    · cases found
    · split at found
      next blank =>
        cases found
        refine ⟨.space ?_ (head?_dropWhile _), by simp⟩
        intro d member
        rcases List.mem_cons.1 member with rfl | inRun
        · exact blank
        · exact List.mem_takeWhile_imp inRun
      next => cases found
  · rintro ⟨rfl, fits, plain⟩
    cases fits with
    | @space c run _ blank ends =>
      obtain ⟨first, others⟩ := List.forall_mem_cons.1 blank
      obtain ⟨runEq, restEq⟩ := takeWhile_of_head? others ends
      simp only [spell, List.cons_append]
      unfold nextPlain?
      split
      next slash =>
        obtain ⟨rfl, -⟩ := List.cons.inj slash
        cases first
      next slash =>
        obtain ⟨rfl, -⟩ := List.cons.inj slash
        cases first
      next nothing => cases nothing
      next same =>
        obtain ⟨rfl, rfl⟩ := List.cons.inj same
        rw [if_pos first, runEq, restEq]
    | @line body _ onLine ends =>
      obtain ⟨bodyEq, restEq⟩ := @takeWhile_of_head? (!endsLine ·) body rest
        (fun d member => by simp [onLine d member]) (fun d first => by simp [ends d first])
      simp only [spell, List.cons_append]
      unfold nextPlain?
      simp only [bodyEq, restEq]
    | block closed =>
      simp only [spell, List.cons_append, List.append_assoc, List.nil_append]
      unfold nextPlain?
      simp only [closed]
    | hidden => exact absurd rfl (plain _)

/-- The marks of hidden lines stand on one line. -/
theorem onLine_of_isMark {mark : Text} (isMark : mark = "<!--".toList ∨ mark = "-->".toList) :
    ∀ d ∈ mark, (!isLineFeed d) = true := by
  apply List.all_eq_true.1
  rcases isMark with rfl | rfl <;> rfl

/-- What is read as trivia is what fits. -/
theorem next?_eq_some_iff {text rest : Text} {piece : Trivia} :
    next? true text = some (piece, rest) ↔ text = piece.spell ++ rest ∧ Fits piece rest := by
  constructor
  · intro found
    refine ⟨(spell_of_next? found).symm, ?_⟩
    unfold next? at found
    split at found
    next plain =>
      cases found
      exact (nextPlain?_eq_some_iff.1 plain).2.1
    next =>
      rw [if_pos rfl] at found
      unfold nextHidden? at found
      split at found
      next marked =>
        cases found
        obtain ⟨mark, isMark, tail, tailEq⟩ :
            ∃ mark, (mark = "<!--".toList ∨ mark = "-->".toList) ∧ mark <+: text := by
          rcases Bool.or_eq_true_iff.1 marked with marked | marked
          · exact ⟨_, .inl rfl, List.isPrefixOf_iff_prefix.1 marked⟩
          · exact ⟨_, .inr rfl, List.isPrefixOf_iff_prefix.1 marked⟩
        subst tailEq
        rw [List.takeWhile_append_of_pos (onLine_of_isMark isMark),
          List.dropWhile_append_of_pos (onLine_of_isMark isMark)]
        refine .hidden isMark ?_ ?_
        · intro d inTail
          simpa using List.mem_takeWhile_imp inTail
        · intro d first
          simpa using head?_dropWhile _ d first
      next => cases found
  · rintro ⟨rfl, fits⟩
    by_cases plain : ∀ hidden, piece ≠ .hidden hidden
    · unfold next?
      rw [nextPlain?_eq_some_iff.2 ⟨rfl, fits, plain⟩]
    · cases fits with
      | @hidden mark tail _ isMark onLine ends =>
        obtain ⟨tailEq, restEq⟩ := @takeWhile_of_head? (!isLineFeed ·) tail rest
          (fun d member => by simp [onLine d member]) (fun d first => by simp [ends d first])
        have onMark := onLine_of_isMark isMark
        have noPlain : nextPlain? (mark ++ (tail ++ rest)) = none := by
          rcases isMark with rfl | rfl <;> rfl
        have marked : ("<!--".toList.isPrefixOf (mark ++ (tail ++ rest))
            || "-->".toList.isPrefixOf (mark ++ (tail ++ rest))) = true := by
          rcases isMark with rfl | rfl <;> rfl
        simp only [spell, List.append_assoc]
        rw [next?, noPlain]
        simp only [nextHidden?, marked, if_true]
        rw [List.takeWhile_append_of_pos onMark, List.dropWhile_append_of_pos onMark, tailEq,
          restEq]
      | _ => exact absurd (fun _ isHidden => nomatch isHidden) plain

/-- A piece of trivia is read off another text too if that text goes on in the same way. -/
theorem next?_of_head? {text rest other : Text} {piece : Trivia}
    (found : next? true text = some (piece, rest)) (same : other.head? = rest.head?) :
    next? true (piece.spell ++ other) = some (piece, other) := by
  refine next?_eq_some_iff.2 ⟨rfl, ?_⟩
  cases (next?_eq_some_iff.1 found).2 with
  | space blank ends => exact .space blank (same ▸ ends)
  | line onLine ends => exact .line onLine (same ▸ ends)
  | block closed => exact .block closed
  | hidden marked onLine ends => exact .hidden marked onLine (same ▸ ends)

/-- A piece of trivia is not empty. -/
theorem exists_cons_of_fits {piece : Trivia} {rest : Text} (fits : Fits piece rest) :
    ∃ c spelled, piece.spell = c :: spelled := by
  cases fits with
  | hidden marked => rcases marked with rfl | rfl <;> exact ⟨_, _, rfl⟩
  | _ => exact ⟨_, _, rfl⟩

/-- Trivia at the front of a text is taken out of it. -/
theorem withoutTrivia_of_next? {text rest : Text} {piece : Trivia}
    (found : next? true text = some (piece, rest)) : withoutTrivia text = withoutTrivia rest := by
  obtain ⟨rfl, fits⟩ := next?_eq_some_iff.1 found
  obtain ⟨c, spelled, spellEq⟩ := exists_cons_of_fits fits
  rw [spellEq, List.cons_append] at found ⊢
  unfold withoutTrivia
  rw [withoutTriviaBehind, found]
  simp only [spellEq, List.length_cons, Nat.add_sub_cancel]
  exact Text.withoutTriviaBehind_append spelled rest

/-- What is no trivia is kept. -/
theorem withoutTrivia_cons {c : Char} {rest : Text} (none : next? true (c :: rest) = none) :
    withoutTrivia (c :: rest) = c :: withoutTrivia rest := by
  unfold withoutTrivia
  rw [withoutTriviaBehind, none]

/-! ## Trivia in a row -/

/-- Whether a text makes no mark of a hidden line with dashes in front of it. -/
def isApart : Text → Bool
  | '>' :: _ => false
  | '-' :: '>' :: _ => false
  | _ => true

theorem isApart_of_next? {text rest : Text} {piece : Trivia}
    (found : next? true text = some (piece, rest)) : isApart text = true := by
  unfold isApart
  split
  next others =>
    rw [show next? true ('>' :: others) = none from rfl] at found
    cases found
  next others =>
    rw [show next? true ('-' :: '>' :: others) = none from rfl] at found
    cases found
  next => rfl

/-- Each piece of trivia that is read off a text is read off some text. -/
theorem exists_of_mem_readAll {bound text : Text} {piece : Trivia}
    (member : piece ∈ (readAll bound text).1) :
    ∃ text rest, next? true text = some (piece, rest) := by
  induction bound generalizing text with
  | nil => simp [readAll] at member
  | cons _ bound inductionHypothesis =>
    unfold readAll at member
    split at member
    next first rest found =>
      rcases List.mem_cons.1 member with rfl | inRest
      · exact ⟨text, rest, found⟩
      · exact inductionHypothesis inRest
    next => cases member

/-- Trivia that was read off a text is taken out of another text that goes on in the same way. -/
theorem withoutTrivia_spellAll {bound text other : Text}
    (same : other.head? = (readAll bound text).2.head?) :
    withoutTrivia (spellAll (readAll bound text).1 ++ other) = withoutTrivia other
      ∧ (isApart other = true → isApart (spellAll (readAll bound text).1 ++ other) = true) := by
  induction bound generalizing text with
  | nil => exact ⟨rfl, id⟩
  | cons _ bound inductionHypothesis =>
    cases found : next? true text with
    | none =>
      simp only [readAll, found]
      exact ⟨rfl, id⟩
    | some read =>
      obtain ⟨piece, rest⟩ := read
      simp only [readAll, found] at same ⊢
      have others := inductionHypothesis same
      have sameRest : (spellAll (readAll bound rest).1 ++ other).head? = rest.head? := by
        rw [List.head?_append, same, ← List.head?_append, spellAll_readAll]
      have here := next?_of_head? found sameRest
      simp only [spellAll, List.flatMap_cons, List.append_assoc] at here others ⊢
      exact ⟨(withoutTrivia_of_next? here).trans others.1, fun _ => isApart_of_next? here⟩

end Grammar.Trivia

end FragmentLint
