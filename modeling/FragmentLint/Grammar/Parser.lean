import FragmentLint.Grammar.Phrase

/-!
Contract: parsers that account for every character they read.

A parser reads phrases from the front of a text and answers a value, the phrases, and the rest. The
answer carries the proof that phrases and rest spell the text it began with, so no parser built
from these pieces can lose, invent or reorder a character, whatever grammar it follows.

Owns: sequencing, choice, repetition, and the wrapping of phrases into larger ones.
Does not own: the grammars.
-/

namespace FragmentLint.Grammar

/-- What a parser read from the front of `input`. -/
structure Parsed (α : Type) (input : Text) where
  value : α
  phrases : List Phrase
  rest : Text
  spelled : Phrase.spellAll phrases ++ rest = input

/-- A parser answers `none` where its construct does not begin. -/
def Parser (α : Type) := (input : Text) → Option (Parsed α input)

namespace Parser

/-- Reads nothing. -/
protected def pure {α : Type} (value : α) : Parser α :=
  fun input => some ⟨value, [], input, by simp⟩

/-- Reads with one parser and then with another that may depend on the value of the first. -/
protected def bind {α β : Type} (first : Parser α) (second : α → Parser β) : Parser β :=
  fun input =>
    match first input with
    | none => none
    | some left =>
      match second left.value left.rest with
      | none => none
      | some right =>
        some ⟨right.value, left.phrases ++ right.phrases, right.rest, by
          simp [right.spelled, left.spelled]⟩

/-- Reads nothing anywhere. -/
protected def fail {α : Type} : Parser α := fun _ => none

/-- Reads with the first parser, or with the second where the first finds nothing. -/
protected def orElse {α : Type} (first : Parser α) (second : Unit → Parser α) : Parser α :=
  fun input =>
    match first input with
    | some parsed => some parsed
    | none => second () input

instance : Monad Parser where
  pure := Parser.pure
  bind := Parser.bind

instance : Alternative Parser where
  failure := Parser.fail
  orElse := Parser.orElse

def ahead : Parser Text := fun input => some ⟨input, [], input, by simp⟩

/-- Goes on only where the text ahead passes a test. -/
def check (test : Text → Bool) : Parser Unit := fun input =>
  if test input then some ⟨(), [], input, by simp⟩ else none

/-- Whether a parser finds something; reads nothing. -/
def finds {α : Type} (inner : Parser α) : Parser Bool := fun input =>
  some ⟨(inner input).isSome, [], input, by simp⟩

def require (condition : Bool) : Parser Unit := check fun _ => condition

def discard {α : Type} (inner : Parser α) : Parser Unit := do
  let _ ← inner
  return ()

/-- Goes on only where the phrases that a parser reads pass a test. -/
def provided (test : List Phrase → Bool) (inner : Parser Unit) : Parser Unit := fun input =>
  match inner input with
  | none => none
  | some parsed => if test parsed.phrases then some parsed else none

/-- Reads with a parser; the value is the phrases that it reads. -/
def reading (inner : Parser Unit) : Parser (List Phrase) := fun input =>
  match inner input with
  | none => none
  | some parsed => some ⟨parsed.phrases, parsed.phrases, parsed.rest, parsed.spelled⟩

/-- Reads with the first parser. Where the text behind it passes a test, the second parser reads the
same characters anew, if it can. -/
def unlessBetter {α : Type} (first : Parser α) (test : Text → Bool) (second : Parser α) :
    Parser α :=
  fun input =>
    match first input with
    | none => none
    | some parsed => if test parsed.rest then (second input).orElse fun _ => some parsed
        else some parsed

/-- Reads a token of the length that a scanner finds, if it finds one. -/
def token (scan : Text → Option Nat) : Parser Unit := fun input =>
  match scan input with
  | none => none
  | some length => some ⟨(), [.token (input.take length)], input.drop length, by
      simp [Phrase.spell]⟩

/-- Reads a quoted string of the length that a scanner finds, if it finds one. -/
def quoted (scan : Text → Option Nat) : Parser Unit := fun input =>
  match scan input with
  | none => none
  | some length => some ⟨(), [.quoted (input.take length)], input.drop length, by
      simp [Phrase.spell]⟩

/-- Reads the phrases of a larger phrase and makes it of them. -/
def wrap {α : Type} (build : List Phrase → Phrase)
    (keeps : ∀ parts, (build parts).spell = Phrase.spellAll parts) (inner : Parser α) :
    Parser α :=
  fun input =>
    match inner input with
    | none => none
    | some parsed => some ⟨parsed.value, [build parsed.phrases], parsed.rest, by
        simp [keeps, parsed.spelled]⟩

def construct {α : Type} (kind : Construct) (inner : Parser α) : Parser α :=
  wrap (.construct kind) (fun _ => by simp [Phrase.spell]) inner

/-- Reads the parts of a construct whose kind depends on the value read, and passes the value on. -/
def constructBy {α : Type} (kind : α → Construct) (inner : Parser α) : Parser α := fun input =>
  match inner input with
  | none => none
  | some parsed => some ⟨parsed.value, [.construct (kind parsed.value) parsed.phrases], parsed.rest, by
      simp [Phrase.spell, parsed.spelled]⟩

def attr {α : Type} (inner : Parser α) : Parser α :=
  wrap .attr (fun _ => by simp [Phrase.spell]) inner

/-- Reads a pair of braces and what stands between them. -/
def container (inside : Parser Unit) : Parser Unit := fun input =>
  match input with
  | '{' :: afterOpen =>
    match inside afterOpen with
    | some ⟨_, phrases, '}' :: rest, spelled⟩ =>
      some ⟨(), [.container phrases], rest, by simp [Phrase.spell, ← spelled]⟩
    | _ => none
  | _ => none

/-- Reads a tag and, unless the tag closes itself, what follows it up to the end of the closing
tag. -/
def element (opening content closing : Parser Unit) : Parser Unit := fun input =>
  match input with
  | '<' :: afterLess =>
    match opening afterLess with
    | some ⟨_, inTag, '/' :: '>' :: rest, spelled⟩ =>
      some ⟨(), [.selfClosing inTag], rest, by simp [Phrase.spell, ← spelled]⟩
    | some ⟨_, inTag, '>' :: afterOpen, spelledOpen⟩ =>
      match content afterOpen with
      | some ⟨_, between, '<' :: '/' :: afterSlash, spelledContent⟩ =>
        match closing afterSlash with
        | some ⟨_, inClosing, '>' :: rest, spelledClosing⟩ =>
          some ⟨(), [.element inTag between inClosing], rest, by
            simp [Phrase.spell, ← spelledOpen, ← spelledContent, ← spelledClosing]⟩
        | _ => none
      | _ => none
    | _ => none
  | _ => none

def optional (inner : Parser Unit) : Parser Unit := inner <|> pure ()

/-- Reads with a parser as often as it reads something, at most once for each character of
`bound`. -/
def repeatAlong (inner : Parser Unit) : (bound input : Text) → Parsed Unit input
  | [], input => ⟨(), [], input, by simp⟩
  | _ :: bound, input =>
    match inner input with
    | some ⟨_, first :: others, rest, spelled⟩ =>
      let more := repeatAlong inner bound rest
      ⟨(), first :: (others ++ more.phrases), more.rest, by
        have tail := more.spelled
        simp only [Phrase.spellAll_cons, Phrase.spellAll_append, List.append_assoc] at spelled ⊢
        rw [tail, spelled]⟩
    | _ => ⟨(), [], input, by simp⟩

/-- Reads with a parser as often as it reads something. -/
def many (inner : Parser Unit) : Parser Unit := fun input => some (repeatAlong inner input input)

/-- Reads with a parser once, and then as often as it reads something. -/
def many1 (inner : Parser Unit) : Parser Unit := do
  inner
  many inner

/-- Lets a phrase grow at its right end: as long as `step` reads something behind the phrases `seed`
read so far, all of it becomes one construct, of the kind that `step` answers. The number of steps
is bounded by the characters of `bound`. -/
def growAlong (step : List Phrase → Parser Construct) {input : Text} :
    (bound : Text) → (seed : Parsed Unit input) → Parsed Unit input
  | [], seed => seed
  | _ :: bound, seed =>
    match step seed.phrases seed.rest with
    | none => seed
    | some next =>
      growAlong step bound
        ⟨(), [.construct next.value (seed.phrases ++ next.phrases)], next.rest, by
          simp [Phrase.spell, next.spelled, seed.spelled]⟩

/-- Reads a phrase and lets it grow at its right end as long as `step` reads something behind
it. -/
def grow (first : Parser Unit) (step : List Phrase → Parser Construct) : Parser Unit :=
  fun input =>
    match first input with
    | none => none
    | some seed => some (growAlong step input seed)

def trivia (hiddenToo : Bool) : Parser Unit := fun input =>
  match found : Trivia.next? hiddenToo input with
  | none => none
  | some (piece, rest) => some ⟨(), [.gap piece], rest, by
      simp [Phrase.spell, Trivia.spell_of_next? found]⟩

/-- Reads a stretch of the length that a scanner finds as trivia that counts as no comment. -/
def hidden (scan : Text → Option Nat) : Parser Unit := fun input =>
  match scan input with
  | none => none
  | some length => some ⟨(), [.gap (.hidden (input.take length))], input.drop length, by
      simp [Phrase.spell, Trivia.spell]⟩

def plainGaps : Parser Unit := many (trivia false)

def gaps : Parser Unit := many (trivia true)

end Parser

end FragmentLint.Grammar
