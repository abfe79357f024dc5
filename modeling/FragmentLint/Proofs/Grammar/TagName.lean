import FragmentLint.Proofs.Grammar.Stripping
import FragmentLint.Proofs.Grammar.Word

/-!
Contract: what the name of a tag is made of, and what is left of it without its trivia.

The name is a word, words joined by dots, or two words joined by a colon. Nothing in a word is
trivia, and the dashes at the end of one make no mark of a hidden line with what follows. Main
statement: `withoutTrivia_spell`.
-/

namespace FragmentLint.Grammar

/-- Whether pieces of trivia are all that was read in front of a character. -/
def Trivia.ReadBefore (pieces : List Trivia) (next : Char) : Prop :=
  ∃ bound text rest, Trivia.readAll bound text = (pieces, next :: rest)

namespace TagName

open Text (withoutTrivia)
open Trivia (ReadBefore isApart)

/-- How a name without a colon is read. -/
inductive IsDotted : TagName → Prop where
  | simple {word : Text} (isWord : IsWord word) : IsDotted (.simple word)
  | member {object : TagName} {before after : List Trivia} {c : Char} {rest : Text}
      (dotted : IsDotted object) (toDot : ReadBefore before '.') (toName : ReadBefore after c)
      (isWord : IsWord (c :: rest)) : IsDotted (.member object before after (c :: rest))

/-- How the name of a tag is read. -/
inductive IsRead : TagName → Prop where
  | dotted {name : TagName} (dotted : IsDotted name) : IsRead name
  | qualified {space : Text} {before after : List Trivia} {c : Char} {rest : Text}
      (isWord : IsWord space) (toColon : ReadBefore before ':') (toName : ReadBefore after c)
      (isSuffix : IsWord (c :: rest)) : IsRead (.qualified space before after (c :: rest))

/-- A word behind trivia, in the form that the two kinds of names take it in. -/
theorem exists_cons_of_isWord {pieces : List Trivia} {bound text rest : Text} {length : Nat}
    (read : Trivia.readAll bound text = (pieces, rest)) (isWord : IsWord (rest.take length)) :
    ∃ c word, rest.take length = c :: word ∧ ReadBefore pieces c := by
  cases rest with
  | nil =>
    rw [List.take_nil] at isWord
    cases isWord
  | cons c behind =>
    cases length with
    | zero => cases isWord
    | succ length => exact ⟨c, behind.take length, rfl, bound, text, behind, read⟩

theorem isDotted_readMembers {bound text : Text} {name : TagName} (dotted : IsDotted name) :
    IsDotted (readMembers bound name text).1 := by
  induction bound generalizing name text with
  | nil => exact dotted
  | cons _ bound inductionHypothesis =>
    unfold readMembers
    simp only
    split
    next afterDot toDot =>
      split
      next length found =>
        have isWord := isWord_of_plain? found
        obtain ⟨c, word, wordEq, toName⟩ := exists_cons_of_isWord rfl isWord
        rw [wordEq] at isWord ⊢
        exact inductionHypothesis (.member dotted ⟨_, _, _, Prod.ext rfl toDot⟩ toName isWord)
      next => exact dotted
    next => exact dotted

theorem isRead_of_readQualified? {space text rest : Text} {name : TagName} (isWord : IsWord space)
    (found : readQualified? space text = some (name, rest)) : IsRead name := by
  unfold readQualified? at found
  simp only at found
  split at found
  next afterColon toColon =>
    split at found
    next length isSuffix =>
      have isSuffix := isWord_of_word? isSuffix
      obtain ⟨c, word, wordEq, toName⟩ := exists_cons_of_isWord rfl isSuffix
      cases found
      rw [wordEq] at isSuffix ⊢
      exact .qualified isWord ⟨_, _, _, Prod.ext rfl toColon⟩ toName isSuffix
    next => cases found
  next => cases found

theorem isRead_of_readAttribute? {text rest : Text} {name : TagName}
    (found : readAttribute? text = some (name, rest)) : IsRead name := by
  unfold readAttribute? at found
  split at found
  next length isWord =>
    have isWord := isWord_of_word? isWord
    split at found
    next qualified =>
      cases found
      exact isRead_of_readQualified? isWord qualified
    next =>
      cases found
      exact .dotted (.simple isWord)
  next => cases found

/-- The name of a tag is a word, words joined by dots, or two words joined by a colon. -/
theorem isRead_of_readTag? {text rest : Text} {name : TagName}
    (found : readTag? text = some (name, rest)) : IsRead name := by
  unfold readTag? at found
  split at found
  next space tail plain =>
    have isRead := isRead_of_readAttribute? plain
    split at found
    · cases found
      exact isRead
    · cases isRead with
      | dotted dotted =>
        have members := @isDotted_readMembers tail tail _ dotted
        rw [Option.some.inj found] at members
        exact .dotted members
  next => exact isRead_of_readAttribute? found

/-! ## Words and trivia -/

theorem isSpace_of_isNameChar {c : Char} (name : isNameChar c = true) :
    Trivia.isSpace c = false := by
  simp only [isNameChar, Lexeme.isWordChar, Bool.or_eq_true, beq_iff_eq] at name
  rcases name with (part | brace) | rfl
  · simp only [Lexeme.isWordPart, Bool.not_eq_true', Bool.or_eq_false_iff] at part
    exact part.1.2
  · simp at brace
    rcases brace with rfl | rfl | rfl <;> rfl
  · rfl

/-- What follows a name makes no mark with the dashes at the end of it. -/
theorem isApart_append {word other : Text} (chars : ∀ c ∈ word, isNameChar c = true)
    (apart : isApart other = true) : isApart (word ++ other) = true := by
  have noMark {c : Char} (member : c ∈ word) : c ≠ '>' := by
    rintro rfl
    exact absurd (chars _ member) (by decide)
  unfold isApart
  split
  next same =>
    cases word with
    | nil =>
      subst same
      cases apart
    | cons c rest => exact absurd (List.cons.inj same).1 (noMark List.mem_cons_self)
  next same =>
    match word with
    | [] =>
      subst same
      cases apart
    | [_] =>
      obtain ⟨-, rfl⟩ := List.cons.inj same
      cases apart
    | _ :: d :: _ =>
      have second := (List.cons.inj (List.cons.inj same).2).1
      exact absurd second (noMark (List.mem_cons_of_mem _ List.mem_cons_self))
  next => rfl

/-- No trivia begins in a name. -/
theorem next?_of_isNameChar {c : Char} {rest : Text} (name : isNameChar c = true)
    (apart : c = '-' → isApart rest = true) : Trivia.next? true (c :: rest) = none := by
  by_contra isTrivia
  obtain ⟨⟨piece, behind⟩, found⟩ := Option.ne_none_iff_exists'.1 isTrivia
  obtain ⟨spellEq, fits⟩ := Trivia.next?_eq_some_iff.1 found
  cases fits with
  | space blank =>
    obtain ⟨rfl, -⟩ := List.cons.inj spellEq
    have first := blank c List.mem_cons_self
    rw [isSpace_of_isNameChar name] at first
    cases first
  | line =>
    obtain ⟨rfl, -⟩ := List.cons.inj spellEq
    exact absurd name (by decide)
  | block =>
    obtain ⟨rfl, -⟩ := List.cons.inj spellEq
    exact absurd name (by decide)
  | hidden marked =>
    rcases marked with rfl | rfl
    · obtain ⟨rfl, -⟩ := List.cons.inj spellEq
      exact absurd name (by decide)
    · obtain ⟨rfl, rfl⟩ := List.cons.inj spellEq
      cases apart rfl

/-- A name is kept when trivia is taken out. -/
theorem withoutTrivia_append {word other : Text} (chars : ∀ c ∈ word, isNameChar c = true)
    (apart : isApart other = true) :
    withoutTrivia (word ++ other) = word ++ withoutTrivia other := by
  induction word with
  | nil => rfl
  | cons c rest inductionHypothesis =>
    obtain ⟨first, others⟩ := List.forall_mem_cons.1 chars
    rw [List.cons_append, Trivia.withoutTrivia_cons
      (next?_of_isNameChar first fun _ => isApart_append others apart), inductionHypothesis others]
    rfl

theorem IsWord.chars {word : Text} (isWord : IsWord word) : ∀ c ∈ word, isNameChar c = true := by
  cases isWord with
  | intro begins chars =>
    exact List.forall_mem_cons.2 ⟨isNameChar_of_isWordChar begins, chars⟩

/-- No piece of trivia is spelled like a word. -/
theorem not_isWord_of_readBefore {pieces : List Trivia} {next : Char}
    (read : ReadBefore pieces next) {piece : Trivia} (member : piece ∈ pieces) :
    ¬ IsWord piece.spell := by
  obtain ⟨bound, text, behind, readEq⟩ := read
  have inRead : piece ∈ (Trivia.readAll bound text).1 := by rwa [readEq]
  obtain ⟨whole, rest, found⟩ := Trivia.exists_of_mem_readAll inRead
  intro isWord
  generalize spellEq : piece.spell = spelled at isWord
  cases isWord with
  | intro begins chars =>
    obtain ⟨rfl, -⟩ := Trivia.next?_eq_some_iff.1 found
    rw [spellEq, List.cons_append, next?_of_isNameChar (isNameChar_of_isWordChar begins)] at found
    · cases found
    · rintro rfl
      exact absurd begins (by decide)

/-- The trivia in front of a character is taken out. -/
theorem withoutTrivia_of_readBefore {pieces : List Trivia} {next : Char}
    (read : ReadBefore pieces next) (rest : Text) :
    withoutTrivia (Trivia.spellAll pieces ++ next :: rest) = withoutTrivia (next :: rest)
      ∧ (isApart (next :: rest) = true →
        isApart (Trivia.spellAll pieces ++ next :: rest) = true) := by
  obtain ⟨bound, text, behind, readEq⟩ := read
  have taken := @Trivia.withoutTrivia_spellAll bound text (next :: rest) (by rw [readEq]; rfl)
  rwa [readEq] at taken

/-- A name without the trivia in it. -/
def bare : TagName → Text
  | simple word => word
  | member object _ _ property => object.bare ++ '.' :: property
  | qualified space _ _ suffix => space ++ ':' :: suffix

/-- A sign between two words, with trivia around it. -/
theorem withoutTrivia_sign {sign c : Char} {before after : List Trivia} {word other : Text}
    (toSign : ReadBefore before sign) (toName : ReadBefore after c) (isWord : IsWord (c :: word))
    (noTrivia : ∀ rest, Trivia.next? true (sign :: rest) = none)
    (noMark : ∀ rest, isApart (sign :: rest) = true) (apart : isApart other = true) :
    withoutTrivia
        (Trivia.spellAll before ++ sign :: (Trivia.spellAll after ++ (c :: word)) ++ other)
        = sign :: (c :: word) ++ withoutTrivia other
      ∧ isApart (Trivia.spellAll before
        ++ sign :: (Trivia.spellAll after ++ (c :: word)) ++ other) = true := by
  simp only [List.append_assoc, List.cons_append]
  obtain ⟨taken, joined⟩ := withoutTrivia_of_readBefore toSign
    (Trivia.spellAll after ++ (c :: (word ++ other)))
  refine ⟨?_, joined (noMark _)⟩
  rw [taken, Trivia.withoutTrivia_cons (noTrivia _), (withoutTrivia_of_readBefore toName _).1,
    ← List.cons_append, withoutTrivia_append isWord.chars apart]
  rfl

theorem withoutTrivia_dotted {name : TagName} (dotted : IsDotted name) {other : Text}
    (apart : isApart other = true) :
    withoutTrivia (name.spell ++ other) = name.bare ++ withoutTrivia other := by
  induction dotted generalizing other with
  | simple isWord => exact withoutTrivia_append isWord.chars apart
  | member _ toDot toName isWord inductionHypothesis =>
    obtain ⟨taken, joined⟩ :=
      withoutTrivia_sign toDot toName isWord (fun _ => rfl) (fun _ => rfl) apart
    rw [spell, List.append_assoc, List.append_assoc, ← List.append_assoc (Trivia.spellAll _),
      inductionHypothesis joined, taken, bare]
    simp

/-- The name of a tag without its white space and comments is its words and the signs between
them. -/
theorem withoutTrivia_spell {name : TagName} (read : IsRead name) :
    withoutTrivia name.spell = name.bare := by
  cases read with
  | dotted dotted =>
    have whole := @withoutTrivia_dotted name dotted [] rfl
    rwa [List.append_nil, show withoutTrivia [] = [] from rfl, List.append_nil] at whole
  | qualified isWord toColon toName isSuffix =>
    obtain ⟨taken, joined⟩ :=
      @withoutTrivia_sign _ _ _ _ _ [] toColon toName isSuffix (fun _ => rfl) (fun _ => rfl) rfl
    rw [List.append_nil] at taken joined
    rw [spell, List.append_assoc, withoutTrivia_append isWord.chars joined, taken, bare]
    simp [show withoutTrivia [] = [] from rfl]

end TagName

end FragmentLint.Grammar
