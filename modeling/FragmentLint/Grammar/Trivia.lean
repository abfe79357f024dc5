import FragmentLint.Text

/-!
Contract: the parts of a source file that stand between its tokens.

Trivia is white space, a comment, or a line set aside by the HTML comment forms that scripts
inherited. Only the first two comment forms carry notes that a program may read; hidden lines do
not. Main statement: reading one piece of trivia splits the text and loses nothing
(`spell_of_next?`).
-/

namespace FragmentLint.Grammar

/-- What may stand between two tokens. -/
inductive Trivia where
  | space (text : Text)
  /-- Two slashes and the rest of the line, `body`. -/
  | line (body : Text)
  /-- `body` between the delimiters of a block comment. -/
  | block (body : Text)
  /-- An HTML comment mark and the rest of its line; it counts as no comment. -/
  | hidden (text : Text)
deriving DecidableEq, Repr

namespace Trivia

def spell : Trivia → Text
  | space text => text
  | line body => '/' :: '/' :: body
  | block body => '/' :: '*' :: (body ++ ['*', '/'])
  | hidden text => text

def spellAll (list : List Trivia) : Text := list.flatMap spell

/-- Whether a character separates tokens: ASCII white space, the Unicode class `Zs`, the two
Unicode line ends, and the three invisible characters U+200B, U+2060 and U+FEFF. -/
def isSpace (c : Char) : Bool :=
  let code := c.toNat
  code == 0x20 || (9 ≤ code && code ≤ 13) || code == 0xA0 || code == 0x1680
    || (0x2000 ≤ code && code ≤ 0x200B) || code == 0x2028 || code == 0x2029 || code == 0x202F
    || code == 0x205F || code == 0x2060 || code == 0x3000 || code == 0xFEFF

/-- Whether a character ends a line for the purpose of hidden lines. -/
def isLineFeed (c : Char) : Bool :=
  c == '\n' || c.toNat == 0x2028 || c.toNat == 0x2029

def endsLine (c : Char) : Bool := c == '\r' || isLineFeed c

/-- The body of a block comment whose opening mark has been read, and what follows the comment;
`none` if it is never closed. -/
def splitBlock? : Text → Option (Text × Text)
  | [] => none
  | '*' :: '/' :: rest => some ([], rest)
  | c :: rest => (splitBlock? rest).map fun (body, after) => (c :: body, after)

/-- Nothing is lost when a block comment is split off. -/
theorem append_of_splitBlock? {text body after : Text}
    (split : splitBlock? text = some (body, after)) : body ++ '*' :: '/' :: after = text := by
  fun_induction splitBlock? text generalizing body after with
  | case1 => simp at split
  | case2 rest => simp_all
  | case3 c rest _ inductionHypothesis =>
    obtain ⟨⟨body', after'⟩, found, equal⟩ := Option.map_eq_some_iff.1 split
    simp only [Prod.mk.injEq] at equal
    obtain ⟨rfl, rfl⟩ := equal
    simp [inductionHypothesis found]

/-- The white space or comment that a text begins with, and the rest. -/
def nextPlain? : Text → Option (Trivia × Text)
  | '/' :: '/' :: rest =>
    some (line (rest.takeWhile (!endsLine ·)), rest.dropWhile (!endsLine ·))
  | '/' :: '*' :: rest =>
    match splitBlock? rest with
    | some (body, after) => some (block body, after)
    | none => none
  | [] => none
  | c :: rest =>
    if isSpace c then some (space (c :: rest.takeWhile isSpace), rest.dropWhile isSpace)
    else none

/-- The hidden line that a text begins with, and the rest. -/
def nextHidden? (text : Text) : Option (Trivia × Text) :=
  if "<!--".toList.isPrefixOf text || "-->".toList.isPrefixOf text then
    some (hidden (text.takeWhile (!isLineFeed ·)), text.dropWhile (!isLineFeed ·))
  else none

/-- The piece of trivia that a text begins with, and the rest. Where an operand may begin, hidden
lines are trivia too; elsewhere their marks are operators. -/
def next? (hiddenToo : Bool) (text : Text) : Option (Trivia × Text) :=
  match nextPlain? text with
  | some found => some found
  | none => if hiddenToo then nextHidden? text else none

/-- The text behind the trivia at the front of a text, at most one piece for each character of
`bound`. -/
def skipAlong (hiddenToo : Bool) : (bound text : Text) → Text
  | [], text => text
  | _ :: bound, text =>
    match next? hiddenToo text with
    | some (_, rest) => skipAlong hiddenToo bound rest
    | none => text

/-- The text behind the white space and comments at the front of a text. -/
def behind (text : Text) : Text := skipAlong false text text

/-- The text behind all the trivia at the front of a text. -/
def behindAll (text : Text) : Text := skipAlong true text text

/-- White space or a comment and the rest make up the text they were read from. -/
theorem spell_of_nextPlain? {text rest : Text} {trivia : Trivia}
    (found : nextPlain? text = some (trivia, rest)) : trivia.spell ++ rest = text := by
  unfold nextPlain? at found
  split at found
  · simp only [Option.some.injEq, Prod.mk.injEq] at found
    obtain ⟨rfl, rfl⟩ := found
    simp [spell]
  · split at found
    next body after split =>
      simp only [Option.some.injEq, Prod.mk.injEq] at found
      obtain ⟨rfl, rfl⟩ := found
      simp [spell, append_of_splitBlock? split]
    next => simp at found
  · simp at found
  · split at found
    next =>
      simp only [Option.some.injEq, Prod.mk.injEq] at found
      obtain ⟨rfl, rfl⟩ := found
      simp [spell]
    next => simp at found

/-- A hidden line and the rest make up the text they were read from. -/
theorem spell_of_nextHidden? {text rest : Text} {trivia : Trivia}
    (found : nextHidden? text = some (trivia, rest)) : trivia.spell ++ rest = text := by
  unfold nextHidden? at found
  split at found
  · simp only [Option.some.injEq, Prod.mk.injEq] at found
    obtain ⟨rfl, rfl⟩ := found
    simp [spell]
  · simp at found

/-- A piece of trivia and the rest make up the text they were read from. -/
theorem spell_of_next? {hiddenToo : Bool} {text rest : Text} {trivia : Trivia}
    (found : next? hiddenToo text = some (trivia, rest)) : trivia.spell ++ rest = text := by
  unfold next? at found
  split at found
  next plain =>
    cases found
    exact spell_of_nextPlain? plain
  next =>
    split at found
    · exact spell_of_nextHidden? found
    · simp at found

end Trivia

end FragmentLint.Grammar
