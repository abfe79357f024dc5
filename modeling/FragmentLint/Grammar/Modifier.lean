import FragmentLint.Grammar.Literal

/-!
Contract: the words and the star in front of the key of a member.

A word is a modifier if a key goes on behind it, so `static` alone is a key. Which modifiers a member
may have, and in which order, is a list of slots: each slot is filled by at most one of its words.
-/

namespace FragmentLint.Grammar

namespace Modifier

/-- Whether modifiers fill slots in their order, at most one for each slot. -/
def fill : (slots : List (List String)) → (modifiers : List String) → Bool
  | _, [] => true
  | [], _ :: _ => false
  | slot :: slots, first :: others =>
    if slot.contains first then fill slots others else fill slots (first :: others)

/-- The words that may be modifiers of the members of an object or a class. -/
def words (dialect : Dialect) : List String :=
  match dialect with
  | .javascript => ["static", "async", "get", "set"]
  | .tsx =>
    ["static", "async", "get", "set", "public", "private", "protected", "override", "readonly",
      "declare"]

/-- The words that are no keys where a member of a class may begin, behind some modifiers. -/
def neverKeys (dialect : Dialect) (seen : List String) : List String :=
  let early := ["declare", "public", "private", "protected"]
  match dialect with
  | .javascript => []
  | .tsx =>
    if seen.all early.contains then ["abstract", "accessor"]
    else if seen.all ("readonly" :: early).contains then ["abstract"] else []

def fitMethod (dialect : Dialect) (modifiers : List String) : Bool :=
  let kinds := ["get", "set", "*"]
  match dialect with
  | .javascript => fill [["static"], ["async"], kinds] modifiers
  | .tsx =>
    fill [Vocabulary.accessWords, ["static"], ["override"], ["readonly"], ["async"], kinds]
      modifiers

/-- Whether a method that a derived class has to define may have modifiers. -/
def fitAbstractMethod (modifiers : List String) : Bool :=
  modifiers.contains "abstract"
    && fill [Vocabulary.accessWords, ["abstract"], ["override"], ["get", "set", "*"]] modifiers

/-- Whether a property of an object type may have modifiers. -/
def fitProperty (modifiers : List String) : Bool :=
  fill [Vocabulary.accessWords, ["static"], ["override"], ["readonly"]] modifiers

def fitField (dialect : Dialect) (modifiers : List String) : Bool :=
  match dialect with
  | .javascript => fill [["static"]] modifiers
  | .tsx =>
    let fronts := [[["declare"], Vocabulary.accessWords], [Vocabulary.accessWords, ["declare"]]]
    let backs :=
      [[["static"], ["override"], ["readonly"]], [["abstract"], ["readonly"]],
        [["readonly"], ["abstract"]], [["accessor"]]]
    fronts.any fun front => backs.any fun back => fill (front ++ back) modifiers

end Modifier

namespace Parser

/-- Reads one modifier and what separates it from the rest; the value is the modifier. A statement
may end as `ending` says behind one of the words, but not behind one that is never a key. -/
def modifier (nested : Nested) (words neverKeys : List String) (ending : Option Ending) :
    Parser String :=
  (do
    symbol "*"
    gaps
    check Lexeme.beginsKey
    return "*")
  <|> do
    let name ← wordAhead
    match (neverKeys ++ words).find? (·.toList == name) with
    | none => Parser.fail
    | some found =>
      word
      unended nested.dialect (if neverKeys.contains found then none else ending)
      gaps
      check fun text => Lexeme.beginsKey text || text.head? == some '*'
      return found

/-- Reads modifiers as long as there are any; `seen` are those before. Within a class some words
are never keys. -/
def modifiersAlong (nested : Nested) (inClass : Bool) (ending : Option Ending)
    (seen : List String) : (bound : Text) → Parser (List String)
  | [] => return seen
  | _ :: bound =>
    (do
      let neverKeys := if inClass then Modifier.neverKeys nested.dialect seen else []
      let found ← modifier nested (Modifier.words nested.dialect) neverKeys ending
      modifiersAlong nested inClass ending (seen ++ [found]) bound) <|> return seen

/-- The length of `static get` with the end of its line, which is one modifier: the getter goes on
on the next line. -/
def staticGetter? (text : Text) : Option Nat :=
  let afterStatic := text.drop 6
  let blank := (afterStatic.takeWhile Semicolon.isAsciiSpace).length
  let afterGet := afterStatic.drop (blank + 3)
  let tail := afterGet.takeWhile Semicolon.isAsciiSpace
  let kept := (tail.reverse.dropWhile (· != '\n')).length
  if Lexeme.begins "static" text && blank != 0 && Lexeme.begins "get" (afterStatic.drop blank)
      && kept != 0 then some (6 + blank + 3 + kept)
  else none

/-- Reads the modifiers of a member; the value is their list. -/
def modifiers (nested : Nested) (inClass : Bool) (ending : Option Ending) :
    Parser (List String) :=
  (do
    require !nested.typed
    token staticGetter?
    gaps
    modifiersAlong nested inClass ending ["static"] (← ahead))
  <|> do modifiersAlong nested inClass ending [] (← ahead)

end Parser

end FragmentLint.Grammar
