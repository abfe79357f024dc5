import FragmentLint.Grammar.Lexeme

/-!
Contract: reading the names of tags and attributes.

A tag is named by a word, by words joined with dots, or by two names joined with a colon; an
attribute by a name or by two names joined with a colon. Names of the first and last kind may hold
dashes. White space and comments may stand around a dot or a colon and are kept with the name.
-/

namespace FragmentLint.Grammar

/-- All the trivia at the front of a text, at most one piece for each character of `bound`, and the
rest of the text. -/
def Trivia.readAll : (bound text : Text) → List Trivia × Text
  | [], text => ([], text)
  | _ :: bound, text =>
    match Trivia.next? true text with
    | some (piece, rest) =>
      let more := Trivia.readAll bound rest
      (piece :: more.1, more.2)
    | none => ([], text)

theorem Trivia.spellAll_readAll (bound text : Text) :
    Trivia.spellAll (Trivia.readAll bound text).1 ++ (Trivia.readAll bound text).2 = text := by
  induction bound generalizing text with
  | nil => simp [readAll, spellAll]
  | cons _ bound inductionHypothesis =>
    unfold readAll
    split
    next piece rest found =>
      have tail := inductionHypothesis rest
      simp only [spellAll, List.flatMap_cons, List.append_assoc] at tail ⊢
      rw [tail, Trivia.spell_of_next? found]
    next => simp [spellAll]

namespace TagName

/-- The dotted words that follow a name, joined to it. -/
def readMembers : (bound : Text) → (name : TagName) → (text : Text) → TagName × Text
  | [], name, text => (name, text)
  | _ :: bound, name, text =>
    let before := Trivia.readAll text text
    match before.2 with
    | '.' :: afterDot =>
      let after := Trivia.readAll afterDot afterDot
      match Lexeme.word? after.2 with
      | some length =>
        readMembers bound (member name before.1 after.1 (after.2.take length))
          (after.2.drop length)
      | none => (name, text)
    | _ => (name, text)

theorem spell_readMembers (bound : Text) (name : TagName) (text : Text) :
    (readMembers bound name text).1.spell ++ (readMembers bound name text).2
      = name.spell ++ text := by
  induction bound generalizing name text with
  | nil => simp [readMembers]
  | cons _ bound inductionHypothesis =>
    unfold readMembers
    have before := Trivia.spellAll_readAll text text
    simp only
    split
    next afterDot dot =>
      have after := Trivia.spellAll_readAll afterDot afterDot
      split
      next length found =>
        rw [inductionHypothesis]
        simp only [spell, List.append_assoc, List.cons_append, List.take_append_drop]
        rw [after, ← dot, before]
      next => rfl
    next => rfl

def word? (text : Text) : Option Nat :=
  match Lexeme.dashed? text with
  | some length => some length
  | none => Lexeme.word? text

/-- The second half of a qualified name whose first half is `space`, and the rest. -/
def readQualified? (space text : Text) : Option (TagName × Text) :=
  let before := Trivia.readAll text text
  match before.2 with
  | ':' :: afterColon =>
    let after := Trivia.readAll afterColon afterColon
    match word? after.2 with
    | some length =>
      some (qualified space before.1 after.1 (after.2.take length), after.2.drop length)
    | none => none
  | _ => none

/-- Joining the halves of a qualified name loses nothing. -/
theorem spell_of_readQualified? {space text rest : Text} {name : TagName}
    (found : readQualified? space text = some (name, rest)) :
    name.spell ++ rest = space ++ text := by
  unfold readQualified? at found
  have before := Trivia.spellAll_readAll text text
  simp only at found
  split at found
  next afterColon colon =>
    have after := Trivia.spellAll_readAll afterColon afterColon
    split at found
    next length _ =>
      simp only [Option.some.injEq, Prod.mk.injEq] at found
      obtain ⟨rfl, rfl⟩ := found
      simp only [spell, List.append_assoc, List.cons_append, List.take_append_drop]
      rw [after, ← colon, before]
    next => simp at found
  next => simp at found

/-- The name of an attribute at the front of a text, and the rest. -/
def readAttribute? (text : Text) : Option (TagName × Text) :=
  match word? text with
  | some length =>
    match readQualified? (text.take length) (text.drop length) with
    | some found => some found
    | none => some (simple (text.take length), text.drop length)
  | none => none

/-- The name of a tag at the front of a text, and the rest. A name with a dash is not followed by
members. -/
def readTag? (text : Text) : Option (TagName × Text) :=
  match readAttribute? text with
  | some (simple space, rest) =>
    if space.contains '-' then some (simple space, rest)
    else some (readMembers rest (simple space) rest)
  | other => other

/-- Reading the name of an attribute loses nothing. -/
theorem spell_of_readAttribute? {text rest : Text} {name : TagName}
    (found : readAttribute? text = some (name, rest)) : name.spell ++ rest = text := by
  unfold readAttribute? at found
  split at found
  next length _ =>
    split at found
    next qualifiedFound =>
      cases found
      rw [spell_of_readQualified? qualifiedFound, List.take_append_drop]
    next =>
      simp only [Option.some.injEq, Prod.mk.injEq] at found
      obtain ⟨rfl, rfl⟩ := found
      simp [spell]
  next => simp at found

theorem spell_of_readTag? {text rest : Text} {name : TagName}
    (found : readTag? text = some (name, rest)) : name.spell ++ rest = text := by
  unfold readTag? at found
  split at found
  next space tail plain =>
    have whole := spell_of_readAttribute? plain
    split at found
    · cases found
      exact whole
    · simp only [Option.some.injEq] at found
      have joined := spell_readMembers tail (simple space) tail
      rw [found] at joined
      rw [joined, whole]
  next => exact spell_of_readAttribute? found

end TagName

namespace Parser

def attributeName : Parser Unit := fun input =>
  match found : TagName.readAttribute? input with
  | none => none
  | some (name, rest) => some ⟨(), [.name name], rest, by
      simp [Phrase.spell, TagName.spell_of_readAttribute? found]⟩

def tagName : Parser Unit := fun input =>
  match found : TagName.readTag? input with
  | none => none
  | some (name, rest) => some ⟨(), [.name name], rest, by
      simp [Phrase.spell, TagName.spell_of_readTag? found]⟩

end Parser

end FragmentLint.Grammar
