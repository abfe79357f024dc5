import FragmentLint.Grammar.Construct
import FragmentLint.Grammar.Trivia

/-!
Contract: the concrete tree of a source file.

A phrase keeps every character that it was read from, white space and comments included, so where
it stands follows from the sizes of the phrases before it. Markup has constructors of its own:
their delimiters are part of the constructor, so a tag or a container in braces cannot lack
one.

Does not own: reading phrases from text, and what the markup in them means.
-/

namespace FragmentLint.Grammar

/-- The name in a tag or of an attribute, as written. -/
inductive TagName where
  | simple (word : Text)
  /-- `object . property`, with the trivia around the dot. -/
  | member (object : TagName) (beforeDot afterDot : List Trivia) (property : Text)
  /-- `space : suffix`, with the trivia around the colon. -/
  | qualified (space : Text) (beforeColon afterColon : List Trivia) (suffix : Text)
deriving DecidableEq, Repr

namespace TagName

def spell : TagName → Text
  | simple word => word
  | member object beforeDot afterDot property =>
    object.spell ++ Trivia.spellAll beforeDot ++ '.' :: (Trivia.spellAll afterDot ++ property)
  | qualified space beforeColon afterColon suffix =>
    space ++ Trivia.spellAll beforeColon ++ ':' :: (Trivia.spellAll afterColon ++ suffix)

end TagName

/-- A piece of the concrete tree. -/
inductive Phrase where
  /-- A token, or a stretch of text between tags. -/
  | token (text : Text)
  | gap (trivia : Trivia)
  | construct (kind : Construct) (parts : List Phrase)
  | name (written : TagName)
  /-- A string written in quotes as the value of an attribute, quotes included. -/
  | quoted (text : Text)
  /-- An attribute: its name and, behind an equals sign, its value. -/
  | attr (parts : List Phrase)
  /-- What stands between a pair of braces in markup. -/
  | container (inside : List Phrase)
  /-- A tag that closes itself, without its delimiters. -/
  | selfClosing (inside : List Phrase)
  /-- An element: the insides of its opening tag, what stands between the tags, and the inside of
  its closing tag. -/
  | element (opening content closing : List Phrase)

namespace Phrase

mutual
def spell : Phrase → Text
  | .token text => text
  | .gap trivia => trivia.spell
  | .construct _ parts => spellAll parts
  | .name written => written.spell
  | .quoted text => text
  | .attr parts => spellAll parts
  | .container inside => '{' :: (spellAll inside ++ ['}'])
  | .selfClosing inside => '<' :: (spellAll inside ++ ['/', '>'])
  | .element opening content closing =>
    '<' :: (spellAll opening
      ++ '>' :: (spellAll content ++ '<' :: '/' :: (spellAll closing ++ ['>'])))

/-- The text that several phrases in a row were read from. -/
def spellAll : List Phrase → Text
  | [] => []
  | phrase :: rest => spell phrase ++ spellAll rest
end

@[simp] theorem spellAll_nil : spellAll [] = [] := by simp [spellAll]

@[simp] theorem spellAll_cons (phrase : Phrase) (rest : List Phrase) :
    spellAll (phrase :: rest) = spell phrase ++ spellAll rest := by simp [spellAll]

@[simp] theorem spellAll_append (left right : List Phrase) :
    spellAll (left ++ right) = spellAll left ++ spellAll right := by
  induction left with
  | nil => simp
  | cons phrase rest inductionHypothesis => simp [inductionHypothesis]

mutual
/-- The number of bytes that a phrase takes in the source. -/
def size : Phrase → Nat
  | .token text => Text.bytes text
  | .gap trivia => Text.bytes trivia.spell
  | .construct _ parts => sizeAll parts
  | .name written => Text.bytes written.spell
  | .quoted text => Text.bytes text
  | .attr parts => sizeAll parts
  | .container inside => sizeAll inside + 2
  | .selfClosing inside => sizeAll inside + 3
  | .element opening content closing => sizeAll opening + sizeAll content + sizeAll closing + 5

/-- The number of bytes that several phrases in a row take. -/
def sizeAll : List Phrase → Nat
  | [] => 0
  | phrase :: rest => size phrase + sizeAll rest
end

mutual
theorem size_eq (phrase : Phrase) : size phrase = Text.bytes (spell phrase) := by
  cases phrase with
  | token text => simp [size, spell]
  | gap trivia => simp [size, spell]
  | construct kind parts => simp [size, spell, sizeAll_eq parts]
  | name written => simp [size, spell]
  | quoted text => simp [size, spell]
  | attr parts => simp [size, spell, sizeAll_eq parts]
  | container inside =>
    have open_ : Char.utf8Size '{' = 1 := by decide
    have close : Char.utf8Size '}' = 1 := by decide
    simp only [size, spell, sizeAll_eq inside, Text.bytes_cons, Text.bytes_append,
      Text.bytes_nil, open_, close]
    omega
  | selfClosing inside =>
    have less : Char.utf8Size '<' = 1 := by decide
    have slash : Char.utf8Size '/' = 1 := by decide
    have greater : Char.utf8Size '>' = 1 := by decide
    simp only [size, spell, sizeAll_eq inside, Text.bytes_cons, Text.bytes_append,
      Text.bytes_nil, less, slash, greater]
    omega
  | element opening content closing =>
    have less : Char.utf8Size '<' = 1 := by decide
    have slash : Char.utf8Size '/' = 1 := by decide
    have greater : Char.utf8Size '>' = 1 := by decide
    simp only [size, spell, sizeAll_eq opening, sizeAll_eq content, sizeAll_eq closing,
      Text.bytes_cons, Text.bytes_append, Text.bytes_nil, less, slash, greater]
    omega

/-- The size of several phrases in a row is the size of their text. -/
theorem sizeAll_eq (phrases : List Phrase) : sizeAll phrases = Text.bytes (spellAll phrases) := by
  cases phrases with
  | nil => simp [sizeAll]
  | cons phrase rest => simp [sizeAll, size_eq phrase, sizeAll_eq rest]
end

end Phrase

end FragmentLint.Grammar
