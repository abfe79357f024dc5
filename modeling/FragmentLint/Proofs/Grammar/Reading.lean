import FragmentLint.Grammar.Source
import Mathlib.Data.Nat.Init

/-!
Contract: what holds of the phrases that a parser reads, shown for each way to make parsers of
others.

A parser that is put together from others reads what they read, so a property of single phrases is
handed on by sequencing, choice and repetition. Only the parsers that wrap phrases into larger ones
have something to show. The instances are found along the text of a grammar.

Owns: `Parser.Ensures`, and the classes `Parser.Reads`, `Parser.Yields` and `Parser.Answers`.
Does not own: which properties phrases have.
-/

namespace FragmentLint.Grammar.Parser

variable {α β : Type}

/-- Whether whatever a parser reads, value and phrases, is as `holds` says. -/
def Ensures (parser : Parser α) (holds : α → List Phrase → Prop) : Prop :=
  ∀ input parsed, parser input = some parsed → holds parsed.value parsed.phrases

namespace Ensures

variable {holds : α → List Phrase → Prop}

theorem mono {parser : Parser α} {weaker : α → List Phrase → Prop} (ensures : parser.Ensures holds)
    (implies : ∀ value phrases, holds value phrases → weaker value phrases) :
    parser.Ensures weaker :=
  fun input parsed read => implies _ _ (ensures input parsed read)

theorem pure {value : α} (ends : holds value []) : (pure value : Parser α).Ensures holds := by
  rintro input parsed ⟨⟩
  exact ends

theorem fail : (Parser.fail : Parser α).Ensures holds := by
  rintro input parsed ⟨⟩

theorem bind {first : Parser β} {second : β → Parser α} {before : β → List Phrase → Prop}
    (left : first.Ensures before)
    (right : ∀ value phrases, before value phrases →
      (second value).Ensures fun result others => holds result (phrases ++ others)) :
    (first >>= second).Ensures holds := by
  intro input parsed read
  change Parser.bind first second input = some parsed at read
  unfold Parser.bind at read
  split at read
  next => cases read
  next leftParsed leftRead =>
    split at read
    next => cases read
    next rightParsed rightRead =>
      cases read
      exact right _ _ (left _ _ leftRead) _ _ rightRead

theorem orElse {first second : Parser α} (left : first.Ensures holds)
    (right : second.Ensures holds) : (first <|> second).Ensures holds := by
  intro input parsed read
  change Parser.orElse first (fun _ => second) input = some parsed at read
  unfold Parser.orElse at read
  split at read
  next leftParsed leftRead =>
    cases read
    exact left _ _ leftRead
  next => exact right _ _ read

theorem check {holds : Unit → List Phrase → Prop} {test : Text → Bool} (ends : holds () []) :
    (check test).Ensures holds := by
  intro input parsed read
  unfold Parser.check at read
  split at read
  · cases read
    exact ends
  · cases read

theorem unlessBetter {first second : Parser α} {test : Text → Bool} (left : first.Ensures holds)
    (right : second.Ensures holds) : (unlessBetter first test second).Ensures holds := by
  intro input parsed read
  unfold Parser.unlessBetter at read
  split at read
  next => cases read
  next leftParsed leftRead =>
    split at read
    · cases secondRead : second input with
      | none =>
        rw [secondRead] at read
        cases read
        exact left _ _ leftRead
      | some other =>
        rw [secondRead] at read
        cases read
        exact right _ _ secondRead
    · cases read
      exact left _ _ leftRead

theorem wrap {inner : Parser α} {build : List Phrase → Phrase}
    {keeps : ∀ parts, (build parts).spell = Phrase.spellAll parts}
    (inside : inner.Ensures fun value parts => holds value [build parts]) :
    (wrap build keeps inner).Ensures holds := by
  intro input parsed read
  unfold Parser.wrap at read
  split at read
  next => cases read
  next innerParsed innerRead =>
    cases read
    exact inside _ _ innerRead

theorem constructBy {inner : Parser α} {kind : α → Construct}
    (inside : inner.Ensures fun value parts => holds value [.construct (kind value) parts]) :
    (constructBy kind inner).Ensures holds := by
  intro input parsed read
  unfold Parser.constructBy at read
  split at read
  next => cases read
  next innerParsed innerRead =>
    cases read
    exact inside _ _ innerRead

theorem reading {holds : List Phrase → List Phrase → Prop} {inner : Parser Unit}
    (inside : inner.Ensures fun _ phrases => holds phrases phrases) :
    (reading inner).Ensures holds := by
  intro input parsed read
  unfold Parser.reading at read
  split at read
  next => cases read
  next innerParsed innerRead =>
    cases read
    exact inside _ _ innerRead

theorem container {holds : Unit → List Phrase → Prop} {inner : Parser Unit}
    (inside : inner.Ensures fun _ parts => holds () [.container parts]) :
    (container inner).Ensures holds := by
  intro input parsed read
  unfold Parser.container at read
  split at read
  next afterOpen =>
    split at read
    next innerRead =>
      cases read
      exact inside _ _ innerRead
    next => cases read
  next => cases read

/-- What is read of a tag, and of an element with two of them. -/
theorem element {holds : Unit → List Phrase → Prop} {opening content closing : Parser Unit}
    {opens between closes : List Phrase → Prop} (first : opening.Ensures fun _ => opens)
    (second : content.Ensures fun _ => between) (third : closing.Ensures fun _ => closes)
    (single : ∀ inTag, opens inTag → holds () [.selfClosing inTag])
    (pair : ∀ inTag inside inClosing, opens inTag → between inside → closes inClosing →
      holds () [.element inTag inside inClosing]) :
    (element opening content closing).Ensures holds := by
  intro input parsed read
  unfold Parser.element at read
  split at read
  next afterLess =>
    split at read
    next openRead =>
      cases read
      exact single _ (first _ _ openRead)
    next openRead =>
      split at read
      next contentRead =>
        split at read
        next closeRead =>
          cases read
          exact pair _ _ _ (first _ _ openRead) (second _ _ contentRead) (third _ _ closeRead)
        next => cases read
      next => cases read
    next => cases read
  next => cases read

/-- What a phrase grows to is as it began, or a construct around what it was before. -/
theorem growAlong {step : List Phrase → Parser Construct} {holds : List Phrase → Prop}
    (grows : ∀ object, holds object →
      (step object).Ensures fun kind parts => holds [.construct kind (object ++ parts)])
    {input : Text} (bound : Text) (seed : Parsed Unit input) (begins : holds seed.phrases) :
    holds (growAlong step bound seed).phrases := by
  induction bound generalizing seed with
  | nil => exact begins
  | cons _ bound inductionHypothesis =>
    unfold Parser.growAlong
    split
    next => exact begins
    next grown stepped =>
      exact inductionHypothesis _ (grows _ begins _ _ stepped)

theorem grow {first : Parser Unit} {step : List Phrase → Parser Construct}
    {holds : List Phrase → Prop} (begins : first.Ensures fun _ => holds)
    (grows : ∀ object, holds object →
      (step object).Ensures fun kind parts => holds [.construct kind (object ++ parts)]) :
    (grow first step).Ensures fun _ => holds := by
  intro input parsed read
  unfold Parser.grow at read
  split at read
  next => cases read
  next seed seedRead =>
    cases read
    exact growAlong grows input seed (begins _ _ seedRead)

end Ensures

/-- Whether all phrases that a parser reads are good. -/
class Reads (good : Phrase → Prop) (parser : Parser α) : Prop where
  ensures : parser.Ensures fun _ phrases => ∀ phrase ∈ phrases, good phrase

/-- Whether a good phrase is among those that a parser reads. -/
class Yields (good : Phrase → Prop) (parser : Parser α) : Prop where
  ensures : parser.Ensures fun _ phrases => ∃ phrase ∈ phrases, good phrase

/-- Whether the value of a parser is always as `holds` says. -/
class Answers (holds : α → Prop) (parser : Parser α) : Prop where
  ensures : parser.Ensures fun value _ => holds value

section Reads

variable {good : Phrase → Prop} {first second : Parser α}

theorem reads_of_eq_nil {parser : Parser α}
    (silent : parser.Ensures fun _ phrases => phrases = []) : parser.Reads good := by
  refine ⟨silent.mono ?_⟩
  rintro value _ rfl phrase ⟨⟩

instance (value : α) : (pure value : Parser α).Reads good := reads_of_eq_nil (.pure rfl)

instance : (Parser.fail : Parser α).Reads good := ⟨.fail⟩

instance Reads.bind (first : Parser β) (second : β → Parser α) [left : first.Reads good]
    [right : ∀ value, (second value).Reads good] : (first >>= second).Reads good := by
  refine ⟨.bind left.ensures ?_⟩
  intro value phrases readBefore
  refine (right value).ensures.mono ?_
  intro result others readBehind phrase member
  rcases List.mem_append.1 member with before | behind
  · exact readBefore phrase before
  · exact readBehind phrase behind

/-- The same where the value is not looked at, which keeps the search along a sequence small. -/
instance (priority := high) (first : Parser β) (second : Parser α) [first.Reads good]
    [second.Reads good] : (first >>= fun _ => second).Reads good :=
  inferInstance

instance Reads.orElse [left : first.Reads good] [right : second.Reads good] :
    (first <|> second).Reads good :=
  ⟨.orElse left.ensures right.ensures⟩

instance (condition : Prop) [Decidable condition] [left : first.Reads good]
    [right : second.Reads good] : (if condition then first else second).Reads good := by
  split
  · exact left
  · exact right

instance : ahead.Reads good := by
  refine reads_of_eq_nil ?_
  rintro input parsed ⟨⟩
  rfl

instance (test : Text → Bool) : (check test).Reads good := reads_of_eq_nil (.check rfl)

instance (condition : Bool) : (require condition).Reads good := by
  unfold require
  infer_instance

instance (c : Char) : (next c).Reads good := by
  unfold next
  infer_instance

instance : wordAhead.Reads good := by
  unfold wordAhead
  infer_instance

instance (inner : Parser α) : (finds inner).Reads good := by
  refine reads_of_eq_nil ?_
  rintro input parsed ⟨⟩
  rfl

instance Reads.discard [first.Reads good] : (discard first).Reads good :=
  inferInstanceAs ((first >>= fun _ => pure ()).Reads good)

instance (inner : Parser Unit) (test : List Phrase → Bool) [read : inner.Reads good] :
    (provided test inner).Reads good := by
  constructor
  intro input parsed found
  unfold provided at found
  split at found
  next => cases found
  next innerParsed innerRead =>
    split at found
    · cases found
      exact read.ensures _ _ innerRead
    · cases found

instance (inner : Parser Unit) [read : inner.Reads good] : (reading inner).Reads good := by
  constructor
  intro input parsed found
  unfold reading at found
  split at found
  next => cases found
  next innerParsed innerRead =>
    cases found
    exact read.ensures _ _ innerRead

instance (test : Text → Bool) [left : first.Reads good] [right : second.Reads good] :
    (unlessBetter first test second).Reads good :=
  ⟨.unlessBetter left.ensures right.ensures⟩

instance (inner : Parser Unit) [inner.Reads good] : (optional inner).Reads good := by
  unfold optional
  infer_instance

theorem reads_repeatAlong (inner : Parser Unit) [read : inner.Reads good] (bound input : Text) :
    ∀ phrase ∈ (repeatAlong inner bound input).phrases, good phrase := by
  induction bound generalizing input with
  | nil =>
    rintro phrase ⟨⟩
  | cons _ bound inductionHypothesis =>
    unfold repeatAlong
    split
    next value firstPhrase others rest spelled innerRead =>
      have own := read.ensures _ _ innerRead
      intro phrase member
      replace member : phrase ∈ firstPhrase :: others ++ (repeatAlong inner bound rest).phrases :=
        member
      rcases List.mem_append.1 member with here | later
      · exact own phrase here
      · exact inductionHypothesis rest phrase later
    next =>
      rintro phrase ⟨⟩

instance (inner : Parser Unit) [inner.Reads good] : (many inner).Reads good := by
  constructor
  rintro input parsed ⟨⟩
  exact reads_repeatAlong inner input input

instance (inner : Parser Unit) [inner.Reads good] : (many1 inner).Reads good := by
  unfold many1
  infer_instance

instance (nested : Nested) (inner : Parser Unit) [inner.Reads good] :
    (whereTyped nested inner).Reads good := by
  unfold whereTyped
  infer_instance

end Reads

section Yields

variable {good : Phrase → Prop} {first second : Parser α}

instance : (Parser.fail : Parser α).Yields good := ⟨.fail⟩

instance Yields.bind_left (first : Parser β) (second : β → Parser α) [left : first.Yields good] :
    (first >>= second).Yields good := by
  refine ⟨.bind left.ensures ?_⟩
  rintro _ phrases ⟨phrase, member, isGood⟩ input parsed _
  exact ⟨phrase, List.mem_append_left _ member, isGood⟩

instance Yields.bind_right (first : Parser β) (second : β → Parser α)
    [right : ∀ value, (second value).Yields good] : (first >>= second).Yields good := by
  have anything : first.Ensures fun _ _ => True := fun _ _ _ => trivial
  refine ⟨.bind anything ?_⟩
  rintro value phrases - input parsed read
  obtain ⟨phrase, member, isGood⟩ := (right value).ensures _ _ read
  exact ⟨phrase, List.mem_append_right _ member, isGood⟩

instance Yields.discard [first.Yields good] : (discard first).Yields good :=
  inferInstanceAs ((first >>= fun _ => pure ()).Yields good)

instance [left : first.Yields good] [right : second.Yields good] :
    (first <|> second).Yields good :=
  ⟨.orElse left.ensures right.ensures⟩

instance (condition : Prop) [Decidable condition] [left : first.Yields good]
    [right : second.Yields good] : (if condition then first else second).Yields good := by
  split
  · exact left
  · exact right

instance (test : Text → Bool) [left : first.Yields good] [right : second.Yields good] :
    (unlessBetter first test second).Yields good :=
  ⟨.unlessBetter left.ensures right.ensures⟩

end Yields

section Answers

variable {holds : α → Prop} {first second : Parser α}

/-- A value that is passed on may be known to be as `before` says. -/
theorem Answers.bind_of {first : Parser β} {second : β → Parser α} {before : β → Prop}
    (left : first.Answers before) (right : ∀ value, before value → (second value).Answers holds) :
    (first >>= second).Answers holds :=
  ⟨.bind left.ensures fun value _ known => (right value known).ensures⟩

instance Answers.bind (first : Parser β) (second : β → Parser α)
    [right : ∀ value, (second value).Answers holds] : (first >>= second).Answers holds :=
  .bind_of ⟨fun _ _ _ => trivial⟩ fun value (_ : True) => right value

instance [left : first.Answers holds] [right : second.Answers holds] :
    (first <|> second).Answers holds :=
  ⟨.orElse left.ensures right.ensures⟩

instance (condition : Prop) [Decidable condition] [left : first.Answers holds]
    [right : second.Answers holds] : (if condition then first else second).Answers holds := by
  split
  · exact left
  · exact right

end Answers

end FragmentLint.Grammar.Parser
