import FragmentLint.Proofs.Grammar.Layout
import FragmentLint.Proofs.Grammar.Reading

/-!
Contract: what the phrases of a source are like, however deep they are nested in each other.

The mark of an optional chain stands in a call, a member or a subscript, and nowhere else that
matters for a chain; the dialects write it differently. A tag begins with its name, or has none. An
attribute begins with its name and holds no other one. Braces hold the trivia at the front of their
text, all of it, and a value behind it, or none. Between tags there are no comments. All of these
are properties of one phrase and its parts, so they are asked of every phrase in a tree, and shown
for the parsers that make such phrases.

Owns: `Phrase.WellFormed`, and how it is handed on by the ways to make parsers of others.
Does not own: the grammars.
-/

namespace FragmentLint.Grammar

/-- Whether a condition is true, as something to be found along the text of a grammar. -/
class Holds (condition : Bool) : Prop where
  holds : condition = true

instance : Holds true := ⟨rfl⟩

namespace Phrase

/-- Whether a phrase is the sign of an optional chain, on its own. -/
def isChainSign : Phrase → Bool
  | .token text => text == "?.".toList
  | _ => false

/-- Whether a phrase is the mark of an optional chain as a construct of its own. -/
def isChainMark : Phrase → Bool
  | .construct .optionalChain _ => true
  | _ => false

/-- Whether a phrase is no mark of an optional chain, in any form. -/
def Unmarked (phrase : Phrase) : Prop :=
  phrase.isChainSign = false ∧ Phrase.isChainMark phrase = false

/-- Whether a phrase is white space, a comment or a hidden line. -/
def IsGap (phrase : Phrase) : Prop := ∃ trivia, phrase = .gap trivia

def IsToken (phrase : Phrase) : Prop := ∃ text, phrase = .token text

/-- Whether the inside of a tag is that of an opening one: trivia, and behind it nothing, or a name
and no further names. -/
def OpensTag (inside : List Phrase) : Prop :=
  ∃ before behind, inside = before ++ behind ∧ (∀ phrase ∈ before, phrase.IsGap)
    ∧ (behind = [] ∨ ∃ written others, behind = .name written :: others
      ∧ ∃ text rest, TagName.readTag? text = some (written, rest))

/-- Whether a phrase in braces is what stands in them, rather than white space, a comment or a sign. A
hidden line is. -/
def isValue : Phrase → Bool
  | .construct _ _ => true
  | .selfClosing _ => true
  | .element _ _ _ => true
  | .gap trivia => trivia.isHidden
  | _ => false

/-- Whether phrases fill a pair of braces: they are the trivia at the front of their text, all of it, and
behind it nothing, or something with a value that the closing brace could not begin. -/
def FillsBraces (inside : List Phrase) : Prop :=
  ∃ (text behind : Text) (pieces : List Trivia) (others : List Phrase),
    text = spellAll inside ++ '}' :: behind ∧ inside = pieces.map gap ++ others
      ∧ Trivia.readAll text text = (pieces, spellAll others ++ '}' :: behind)
      ∧ (others = [] ∨ (∃ phrase ∈ others, phrase.isValue = true)
        ∧ (spellAll others ++ '}' :: behind).head? ≠ some '}')

def isMarkup : Phrase → Bool
  | .selfClosing _ => true
  | .element _ _ _ => true
  | _ => false

def IsMarkup (phrase : Phrase) : Prop := phrase.isMarkup = true

/-- Whether a phrase may stand between two tags: markup, braces, a stretch of text, or a hidden line,
which is text as well. -/
def IsContent : Phrase → Prop
  | .token _ => True
  | .container _ => True
  | .gap trivia => trivia.isHidden = true
  | phrase => phrase.IsMarkup

theorem IsMarkup.isContent {phrase : Phrase} (markup : phrase.IsMarkup) : phrase.IsContent := by
  cases phrase with
  | selfClosing => exact markup
  | element => exact markup
  | _ => cases markup

/-- Whether a phrase may stand behind the name of an attribute: trivia, a sign, or a value. -/
def IsBehindName : Phrase → Prop
  | .token _ => True
  | .gap _ => True
  | .quoted _ => True
  | .container _ => True
  | phrase => phrase.IsMarkup

theorem IsMarkup.isBehindName {phrase : Phrase} (markup : phrase.IsMarkup) :
    phrase.IsBehindName := by
  cases phrase with
  | selfClosing => exact markup
  | element => exact markup
  | _ => cases markup

/-- Whether phrases make up an attribute: a name, and behind it anything but a name. -/
def IsAttribute (parts : List Phrase) : Prop :=
  ∃ written others, parts = .name written :: others ∧ ∀ part ∈ others, part.IsBehindName

end Phrase

namespace Construct

/-- Whether a construct is of a kind for which phrases have no constructor of its own. -/
@[reducible] def isPlain : Construct → Bool
  | .comment => false
  | .htmlComment => false
  | .jsxElement => false
  | .jsxSelfClosing => false
  | .jsxOpening => false
  | .jsxClosing => false
  | .jsxAttribute => false
  | .jsxExpression => false
  | .jsxText => false
  | .jsxNamespaceName => false
  | .error => false
  | _ => true

/-- Whether the parts of a construct may be any phrases, as far as chains go. -/
@[reducible] def isFree : Construct → Bool
  | .member => false
  | .subscript => false
  | .call => false
  | .identifier => false
  | .undefined => false
  | .parenthesized => false
  | .optionalChain => false
  | kind => kind.isPlain

/-- Whether a construct is anything plain but the mark of an optional chain. -/
@[reducible] def isNoMark : Construct → Bool
  | .optionalChain => false
  | kind => kind.isPlain

/-- Whether a part is no mark of an optional chain in a form that a construct has no use for: the
mark is a construct of its own, but in a call of TSX it is a plain sign. -/
def admits (dialect : Dialect) (kind : Construct) (part : Phrase) : Bool :=
  match kind with
  | .member => !part.isChainSign
  | .subscript => !part.isChainSign
  | .call =>
    match dialect with
    | .javascript => !part.isChainSign
    | .tsx => !Phrase.isChainMark part
  | .identifier => !Phrase.isChainMark part
  | .undefined => !Phrase.isChainMark part
  | .parenthesized => !Phrase.isChainMark part
  | _ => true

theorem isNoMark_of_isFree {kind : Construct} (free : kind.isFree = true) :
    kind.isNoMark = true := by
  cases kind <;> first | rfl | cases free

theorem isPlain_of_isFree {kind : Construct} (free : kind.isFree = true) :
    kind.isPlain = true := by
  cases kind <;> first | rfl | cases free

theorem isPlain_of_isNoMark {kind : Construct} (noMark : kind.isNoMark = true) :
    kind.isPlain = true := by
  cases kind <;> first | rfl | cases noMark

theorem isChainMark_of_isNoMark {kind : Construct} {parts : List Phrase}
    (noMark : kind.isNoMark = true) :
    Phrase.isChainMark (.construct kind parts) = false := by
  cases kind <;> first | rfl | cases noMark

theorem mark_of_isNoMark {kind : Construct} {parts : List Phrase} (noMark : kind.isNoMark = true)
    (isMark : kind = .optionalChain) : Phrase.spellAll parts = "?.".toList := by
  rw [isMark] at noMark
  cases noMark

theorem admits_of_isFree {dialect : Dialect} {kind : Construct} (free : kind.isFree = true)
    (part : Phrase) : kind.admits dialect part = true := by
  cases kind <;> first | rfl | cases free

theorem admits_of_unmarked {dialect : Dialect} {kind : Construct} {part : Phrase}
    (unmarked : part.Unmarked) : kind.admits dialect part = true := by
  cases kind with
  | call => cases dialect <;> simp [admits, unmarked.1, unmarked.2]
  | _ => simp [admits, unmarked.1, unmarked.2]

end Construct

/-- Whether a phrase and all phrases in it are as the grammar of a dialect makes them, as far as
chains, tags, attributes and braces go. -/
inductive Phrase.WellFormed (dialect : Dialect) : Phrase → Prop where
  | token (text : Text) : WellFormed dialect (.token text)
  | gap (trivia : Trivia) : WellFormed dialect (.gap trivia)
  | name (written : TagName) : WellFormed dialect (.name written)
  | quoted (text : Text) : WellFormed dialect (.quoted text)
  | construct {kind : Construct} {parts : List Phrase} (plain : kind.isPlain = true)
      (mark : kind = .optionalChain → Phrase.spellAll parts = "?.".toList)
      (admitted : ∀ part ∈ parts, kind.admits dialect part = true)
      (inside : ∀ part ∈ parts, WellFormed dialect part) :
      WellFormed dialect (.construct kind parts)
  | attr {parts : List Phrase} (isAttribute : Phrase.IsAttribute parts)
      (inside : ∀ part ∈ parts, WellFormed dialect part) : WellFormed dialect (.attr parts)
  | container {parts : List Phrase} (fills : Phrase.FillsBraces parts)
      (inside : ∀ part ∈ parts, WellFormed dialect part) : WellFormed dialect (.container parts)
  | selfClosing {inTag : List Phrase} (opens : Phrase.OpensTag inTag)
      (inside : ∀ part ∈ inTag, WellFormed dialect part) : WellFormed dialect (.selfClosing inTag)
  | element {opening content closing : List Phrase} (opens : Phrase.OpensTag opening)
      (inOpening : ∀ part ∈ opening, WellFormed dialect part)
      (inContent : ∀ part ∈ content, WellFormed dialect part)
      (inClosing : ∀ part ∈ closing, WellFormed dialect part)
      (isContent : ∀ part ∈ content, Phrase.IsContent part) :
      WellFormed dialect (.element opening content closing)

section Holds

variable (condition : Prop) [Decidable condition] (left right : Construct)

instance [Holds left.isFree] [Holds right.isFree] :
    Holds (if condition then left else right).isFree := by
  split <;> assumption

instance [Holds left.isNoMark] [Holds right.isNoMark] :
    Holds (if condition then left else right).isNoMark := by
  split <;> assumption

end Holds

namespace Parser

variable {α : Type} {dialect : Dialect}

open Phrase (Unmarked WellFormed IsGap IsToken)

/-- Whether a parser reads what makes a phrase grow: the construct of the kind that it answers is
well formed once something without marks is put in front. -/
class Extends (dialect : Dialect) (parser : Parser Construct) : Prop where
  ensures : parser.Ensures fun kind parts =>
    kind.isNoMark = true
      ∧ ∀ part ∈ parts, kind.admits dialect part = true ∧ part.WellFormed dialect

/-- Whether the kinds that a parser answers may have any parts. -/
abbrev AnswersFree (parser : Parser Construct) : Prop :=
  parser.Answers fun kind => kind.isFree = true

/-! ## Kinds -/

section Kinds

variable {kind : Construct}

instance [free : Holds kind.isFree] :
    (pure kind : Parser Construct).AnswersFree :=
  ⟨.pure free.holds⟩

/-- A kind that is read first and passed on. -/
theorem answersFree_of_passed {first : Parser Construct} {second : Construct → Parser Construct}
    (left : first.AnswersFree) (right : ∀ kind, Holds kind.isFree → (second kind).AnswersFree) :
    (first >>= second).AnswersFree :=
  .bind_of left fun kind free => right kind ⟨free⟩

instance [noMark : Holds kind.isNoMark] :
    (pure kind : Parser Construct).Answers fun kind => kind.isNoMark = true :=
  ⟨.pure noMark.holds⟩

end Kinds

/-! ## What makes a phrase grow -/

section Extends

variable {first second : Parser Construct}

instance (kind : Construct) [noMark : Holds kind.isNoMark] :
    (pure kind : Parser Construct).Extends dialect :=
  ⟨.pure ⟨noMark.holds, by simp⟩⟩

/-- What is read in front need not be without marks if the kinds that are answered admit it. -/
theorem Extends.bind_of {first : Parser α} {second : α → Parser Construct}
    {kinds : Construct → Prop} (left : first.Ensures fun _ phrases => ∀ phrase ∈ phrases,
      phrase.WellFormed dialect ∧ ∀ kind, kinds kind → kind.admits dialect phrase = true)
    (answers : ∀ value, (second value).Answers kinds)
    (right : ∀ value, (second value).Extends dialect) : (first >>= second).Extends dialect := by
  refine ⟨left.bind ?_⟩
  intro value before good input parsed found
  obtain ⟨noMark, inside⟩ := (right value).ensures _ _ found
  refine ⟨noMark, ?_⟩
  intro part member
  rcases List.mem_append.1 member with inFront | behind
  · exact ⟨(good part inFront).2 _ ((answers value).ensures _ _ found), (good part inFront).1⟩
  · exact inside part behind

instance Extends.bind (first : Parser α) (second : α → Parser Construct)
    [unmarked : first.Reads Unmarked] [read : first.Reads (WellFormed dialect)]
    [right : ∀ value, (second value).Extends dialect] : (first >>= second).Extends dialect := by
  have anyKind : ∀ value, (second value).Answers fun _ => True := fun _ => ⟨fun _ _ _ => trivial⟩
  refine .bind_of ?_ anyKind right
  intro input parsed found phrase member
  refine ⟨read.ensures _ _ found phrase member, ?_⟩
  exact fun kind _ => Construct.admits_of_unmarked (unmarked.ensures _ _ found phrase member)

instance [left : first.Extends dialect] [right : second.Extends dialect] :
    (first <|> second).Extends dialect :=
  ⟨.orElse left.ensures right.ensures⟩

instance (condition : Prop) [Decidable condition] [left : first.Extends dialect]
    [right : second.Extends dialect] : (if condition then first else second).Extends dialect := by
  split
  · exact left
  · exact right

/-- A kind that may have any parts needs no look at them. -/
instance (priority := low) (parser : Parser Construct)
    [free : parser.AnswersFree] [read : parser.Reads (WellFormed dialect)] :
    parser.Extends dialect := by
  constructor
  intro input parsed found
  have isFree := free.ensures _ _ found
  exact ⟨Construct.isNoMark_of_isFree isFree, fun part member =>
    ⟨Construct.admits_of_isFree isFree part, read.ensures _ _ found part member⟩⟩

end Extends

/-! ## Parsers of one phrase

Each of them reads phrases of one form only, so what holds of all phrases of the form holds of what it
reads. -/

section Form

variable {good : Phrase → Prop}

theorem reads_token (scan : Text → Option Nat) (every : ∀ text, good (.token text)) :
    (token scan).Reads good := by
  constructor
  intro input parsed found
  unfold token at found
  split at found
  · cases found
  · cases found
    intro phrase member
    obtain rfl := List.mem_singleton.1 member
    exact every _

theorem reads_trivia (hiddenToo : Bool) (every : ∀ piece, good (.gap piece)) :
    (trivia hiddenToo).Reads good := by
  constructor
  intro input parsed found
  unfold trivia at found
  split at found
  · cases found
  · cases found
    intro phrase member
    obtain rfl := List.mem_singleton.1 member
    exact every _

theorem reads_quoted (scan : Text → Option Nat) (every : ∀ text, good (.quoted text)) :
    (quoted scan).Reads good := by
  constructor
  intro input parsed found
  unfold quoted at found
  split at found
  · cases found
  · cases found
    intro phrase member
    obtain rfl := List.mem_singleton.1 member
    exact every _

theorem reads_container (inner : Parser Unit) (every : ∀ inside, good (.container inside)) :
    (container inner).Reads good := by
  have anything : inner.Ensures fun _ _ => True := fun _ _ _ => trivial
  refine ⟨.container (anything.mono ?_)⟩
  intro _ inside _ phrase member
  obtain rfl := List.mem_singleton.1 member
  exact every inside

theorem reads_element (opening content closing : Parser Unit)
    (single : ∀ inTag, good (.selfClosing inTag))
    (pair : ∀ inOpening inside inClosing, good (.element inOpening inside inClosing)) :
    (element opening content closing).Reads good := by
  have all : ∀ parser : Parser Unit, parser.Ensures fun _ _ => True := fun _ _ _ _ => trivial
  refine ⟨.element (all opening) (all content) (all closing) ?_ ?_⟩
  · intro inTag _ phrase member
    obtain rfl := List.mem_singleton.1 member
    exact single inTag
  · intro inOpening inside inClosing _ _ _ phrase member
    obtain rfl := List.mem_singleton.1 member
    exact pair inOpening inside inClosing

instance (scan : Text → Option Nat) : (token scan).Reads IsToken :=
  reads_token scan fun text => ⟨text, rfl⟩

instance (hiddenToo : Bool) : (trivia hiddenToo).Reads IsGap :=
  reads_trivia hiddenToo fun piece => ⟨piece, rfl⟩

end Form

/-! ## Phrases without marks -/

section Unmarked

instance (hiddenToo : Bool) : (trivia hiddenToo).Reads Unmarked :=
  reads_trivia hiddenToo fun _ => ⟨rfl, rfl⟩

instance : gaps.Reads Unmarked := by
  unfold gaps
  infer_instance

instance : plainGaps.Reads Unmarked := by
  unfold plainGaps
  infer_instance

instance (kind : Construct) (inner : Parser α) [noMark : Holds kind.isNoMark] :
    (construct kind inner).Reads Unmarked := by
  refine ⟨.wrap ?_⟩
  intro input parsed _ phrase member
  obtain rfl := List.mem_singleton.1 member
  exact ⟨rfl, Construct.isChainMark_of_isNoMark noMark.holds⟩

instance (kind : α → Construct) (inner : Parser α) [noMark : ∀ value, Holds (kind value).isNoMark] :
    (constructBy kind inner).Reads Unmarked := by
  refine ⟨.constructBy ?_⟩
  intro input parsed _ phrase member
  obtain rfl := List.mem_singleton.1 member
  exact ⟨rfl, Construct.isChainMark_of_isNoMark (noMark _).holds⟩

instance (opening content closing : Parser Unit) :
    (element opening content closing).Reads Unmarked :=
  reads_element opening content closing (fun _ => ⟨rfl, rfl⟩) fun _ _ _ => ⟨rfl, rfl⟩

instance (first : Parser Unit) (step : List Phrase → Parser Construct)
    [begins : first.Reads Unmarked]
    [grows : ∀ object, (step object).Answers fun kind => kind.isNoMark = true] :
    (grow first step).Reads Unmarked := by
  refine ⟨.grow begins.ensures ?_⟩
  intro object _
  refine (grows object).ensures.mono ?_
  intro kind parts noMark phrase member
  obtain rfl := List.mem_singleton.1 member
  exact ⟨rfl, Construct.isChainMark_of_isNoMark noMark⟩

theorem unmarked_grow (dialect : Dialect) {first : Parser Unit}
    {step : List Phrase → Parser Construct} (begins : first.Reads Unmarked)
    (grows : ∀ object, (step object).Extends dialect) :
    (grow first step).Reads Unmarked := by
  have answers : ∀ object, (step object).Answers fun kind => kind.isNoMark = true :=
    fun object => ⟨(grows object).ensures.mono fun _ _ holds => holds.1⟩
  infer_instance

end Unmarked

/-! ## Values -/

section Values

/-- Whether what a parser reads holds a value, as it stands in braces. -/
abbrev YieldsValue (parser : Parser α) : Prop :=
  parser.Yields fun phrase => phrase.isValue = true

/-- Whether a parser reads nothing at a closing brace. -/
def RefusesBrace (parser : Parser α) : Prop := ∀ rest, parser ('}' :: rest) = none

instance (kind : Construct) (inner : Parser α) : (construct kind inner).YieldsValue :=
  ⟨.wrap fun _ _ _ => ⟨_, List.mem_cons_self, rfl⟩⟩

instance (kind : α → Construct) (inner : Parser α) : (constructBy kind inner).YieldsValue :=
  ⟨.constructBy fun _ _ _ => ⟨_, List.mem_cons_self, rfl⟩⟩

instance (opening content closing : Parser Unit) : (element opening content closing).YieldsValue := by
  have all : ∀ parser : Parser Unit, parser.Ensures fun _ _ => True := fun _ _ _ _ => trivial
  refine ⟨.element (all opening) (all content) (all closing) ?_ ?_⟩
  · exact fun _ _ => ⟨_, List.mem_cons_self, rfl⟩
  · exact fun _ _ _ _ _ _ => ⟨_, List.mem_cons_self, rfl⟩

instance (first : Parser Unit) (step : List Phrase → Parser Construct)
    [begins : first.YieldsValue] : (grow first step).YieldsValue :=
  ⟨.grow begins.ensures fun _ _ _ _ _ => ⟨_, List.mem_cons_self, rfl⟩⟩

end Values

/-! ## Well-formed phrases -/

section WellFormed

instance (scan : Text → Option Nat) : (token scan).Reads (WellFormed dialect) :=
  reads_token scan .token

instance (scan : Text → Option Nat) : (quoted scan).Reads (WellFormed dialect) :=
  reads_quoted scan .quoted

instance (hiddenToo : Bool) : (trivia hiddenToo).Reads (WellFormed dialect) :=
  reads_trivia hiddenToo .gap

instance (scan : Text → Option Nat) : (hidden scan).Reads (WellFormed dialect) := by
  constructor
  intro input parsed found
  unfold hidden at found
  split at found
  · cases found
  · cases found
    intro phrase member
    obtain rfl := List.mem_singleton.1 member
    exact .gap _

instance : gaps.Reads (WellFormed dialect) := by
  unfold gaps
  infer_instance

instance : plainGaps.Reads (WellFormed dialect) := by
  unfold plainGaps
  infer_instance

/-- What is read as the name of a tag is one. -/
theorem tagName_ensures : tagName.Ensures fun _ phrases =>
    ∃ written, phrases = [.name written]
      ∧ ∃ text rest, TagName.readTag? text = some (written, rest) := by
  intro input parsed found
  unfold tagName at found
  split at found
  · cases found
  next written rest read =>
    cases found
    exact ⟨written, rfl, input, rest, read⟩

instance : tagName.Reads (WellFormed dialect) := by
  refine ⟨tagName_ensures.mono ?_⟩
  rintro _ _ ⟨written, rfl, -⟩ phrase member
  obtain rfl := List.mem_singleton.1 member
  exact .name written

theorem attributeName_ensures : attributeName.Ensures fun _ phrases =>
    ∃ written, phrases = [.name written] := by
  intro input parsed found
  unfold attributeName at found
  split at found
  · cases found
  · cases found
    exact ⟨_, rfl⟩

instance : attributeName.Reads (WellFormed dialect) := by
  refine ⟨attributeName_ensures.mono ?_⟩
  rintro _ _ ⟨written, rfl⟩ phrase member
  obtain rfl := List.mem_singleton.1 member
  exact .name written

instance (kind : Construct) (inner : Parser α) [free : Holds kind.isFree]
    [read : inner.Reads (WellFormed dialect)] :
    (construct kind inner).Reads (WellFormed dialect) := by
  refine ⟨.wrap (read.ensures.mono ?_)⟩
  intro value parts inside phrase member
  obtain rfl := List.mem_singleton.1 member
  exact .construct (Construct.isPlain_of_isFree free.holds)
    (Construct.mark_of_isNoMark (Construct.isNoMark_of_isFree free.holds))
    (fun part _ => Construct.admits_of_isFree free.holds part) inside

instance (priority := low) (kind : Construct) (inner : Parser α) [noMark : Holds kind.isNoMark]
    [unmarked : inner.Reads Unmarked] [read : inner.Reads (WellFormed dialect)] :
    (construct kind inner).Reads (WellFormed dialect) := by
  refine ⟨.wrap ?_⟩
  intro input parsed found phrase member
  obtain rfl := List.mem_singleton.1 member
  refine .construct (Construct.isPlain_of_isNoMark noMark.holds)
    (Construct.mark_of_isNoMark noMark.holds) ?_ (read.ensures _ _ found)
  exact fun part inside => Construct.admits_of_unmarked (unmarked.ensures _ _ found part inside)

theorem wellFormed_constructBy {kind : α → Construct} {inner : Parser α}
    (read : inner.Reads (WellFormed dialect))
    (free : inner.Ensures fun value _ => (kind value).isFree = true) :
    (constructBy kind inner).Reads (WellFormed dialect) := by
  refine ⟨.constructBy ?_⟩
  intro input parsed found phrase member
  obtain rfl := List.mem_singleton.1 member
  refine .construct (Construct.isPlain_of_isFree (free _ _ found))
    (Construct.mark_of_isNoMark (Construct.isNoMark_of_isFree (free _ _ found))) ?_
    (read.ensures _ _ found)
  exact fun part _ => Construct.admits_of_isFree (free _ _ found) part

instance (kind : α → Construct) (inner : Parser α) [free : ∀ value, Holds (kind value).isFree]
    [read : inner.Reads (WellFormed dialect)] :
    (constructBy kind inner).Reads (WellFormed dialect) :=
  wellFormed_constructBy read fun _ _ _ => (free _).holds

instance (first : Parser Unit) (step : List Phrase → Parser Construct)
    [unmarked : first.Reads Unmarked] [begins : first.Reads (WellFormed dialect)]
    [grows : ∀ object, (step object).Extends dialect] :
    (grow first step).Reads (WellFormed dialect) := by
  have both : first.Ensures fun _ phrases =>
      ∀ phrase ∈ phrases, phrase.Unmarked ∧ phrase.WellFormed dialect :=
    fun input parsed found phrase member =>
      ⟨unmarked.ensures _ _ found phrase member, begins.ensures _ _ found phrase member⟩
  have grown : (grow first step).Ensures fun _ phrases =>
      ∀ phrase ∈ phrases, phrase.Unmarked ∧ phrase.WellFormed dialect := by
    refine .grow both ?_
    intro object good
    refine (grows object).ensures.mono ?_
    rintro kind parts ⟨noMark, inside⟩ phrase member
    obtain rfl := List.mem_singleton.1 member
    refine ⟨⟨rfl, Construct.isChainMark_of_isNoMark noMark⟩,
      .construct (Construct.isPlain_of_isNoMark noMark) (Construct.mark_of_isNoMark noMark) ?_ ?_⟩
    · intro part member
      rcases List.mem_append.1 member with inObject | behind
      · exact Construct.admits_of_unmarked (good part inObject).1
      · exact (inside part behind).1
    · intro part member
      rcases List.mem_append.1 member with inObject | behind
      · exact (good part inObject).2
      · exact (inside part behind).2
  exact ⟨grown.mono fun _ _ good phrase member => (good phrase member).2⟩

end WellFormed

end Parser

end FragmentLint.Grammar
