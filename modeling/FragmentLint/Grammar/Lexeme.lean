import FragmentLint.Grammar.Parser

/-!
Contract: the lengths of the tokens at the front of a text.

Each scanner answers the number of characters of the longest token of its class, or `none` where no
such token begins. Scanners read no trivia.

Owns: words, numbers, strings, templates, regular expressions, the text of markup, and the parsers for
words, signs and lists that need no grammar.
-/

namespace FragmentLint.Grammar.Lexeme

def punctuation : List Char := ":;\x60\"'@#.,|^&<=>+-*/\\%?!~()[]\x7b\x7d".toList

/-- Whether a character may stand inside a word: all but controls, spaces and punctuation. -/
def isWordPart (c : Char) : Bool :=
  !(c.toNat ≤ 0x1F || Trivia.isSpace c || punctuation.contains c)

def isHex (c : Char) : Bool :=
  c.isDigit || ('a' ≤ c && c ≤ 'f') || ('A' ≤ c && c ≤ 'F')

/-- The length of hexadecimal digits in braces, if a text begins with them. -/
def bracedHex? (text : Text) : Option Nat :=
  match text with
  | '{' :: rest =>
    let digits := rest.takeWhile isHex
    if digits.isEmpty then none
    else if (rest.drop digits.length).head? == some '}' then some (digits.length + 2) else none
  | _ => none

/-- The length of the hexadecimal form of a character after `u`, braced or of four digits. -/
def unicodeForm? (text : Text) : Option Nat :=
  match bracedHex? text with
  | some length => some length
  | none => if (text.take 4).length == 4 && (text.take 4).all isHex then some 4 else none

/-- The number of characters of the word parts that a text begins with; an escaped character counts
as one part. -/
def wordPartsAlong : (bound text : Text) → Nat
  | [], _ => 0
  | _ :: bound, text =>
    match text with
    | '\\' :: 'u' :: rest =>
      match unicodeForm? rest with
      | some length => length + 2 + wordPartsAlong bound (rest.drop length)
      | none => 0
    | c :: rest => if isWordPart c then 1 + wordPartsAlong bound rest else 0
    | [] => 0

/-- The length of the word that a text begins with. -/
def word? (text : Text) : Option Nat :=
  match text with
  | c :: _ =>
    if c.isDigit then none
    else
      let length := wordPartsAlong text text
      if length == 0 then none else some length
  | [] => none

def wordAt (text : Text) : Text := text.take ((word? text).getD 0)

/-- Whether a character may stand in a dashed name, dashes left aside. -/
def isDashedPart (c : Char) : Bool := c.isAlphanum || c == '_' || c == '$'

/-- The length of a name in ASCII that holds a dash. -/
def dashed? (text : Text) : Option Nat :=
  match text with
  | c :: _ =>
    if isDashedPart c && !c.isDigit then
      let head := text.takeWhile isDashedPart
      match text.drop head.length with
      | '-' :: rest =>
        some (head.length + 1 + (rest.takeWhile fun c => isDashedPart c || c == '-').length)
      | _ => none
    else none
  | [] => none

/-- The length of a literal at the front of a text. -/
def literal? (literal : Text) (text : Text) : Option Nat :=
  if literal.isPrefixOf text then some literal.length else none

/-- The length of a run of digits of a class, single underscores between them allowed. -/
def digits (isDigit : Char → Bool) : Text → Nat
  | [] => 0
  | '_' :: c :: rest => if isDigit c then 2 + digits isDigit rest else 0
  | c :: rest => if isDigit c then 1 + digits isDigit rest else 0

/-- The length of a run of digits that begins with a digit. -/
def digitRun (isDigit : Char → Bool) (text : Text) : Nat :=
  match text with
  | c :: _ => if isDigit c then digits isDigit text else 0
  | [] => 0

/-- The length of the exponent of a number, if there is one. -/
def exponent (text : Text) : Nat :=
  match text with
  | c :: rest =>
    if c == 'e' || c == 'E' then
      let sign := if rest.head? == some '+' || rest.head? == some '-' then 1 else 0
      let length := digitRun Char.isDigit (rest.drop sign)
      if length == 0 then 0 else 1 + sign + length
    else 0
  | [] => 0

/-- The length of a number that is written with a base mark such as `0x`. -/
def based? (text : Text) : Option Nat :=
  match text with
  | '0' :: mark :: rest =>
    let length :=
      if mark == 'x' || mark == 'X' then digitRun isHex rest
      else if mark == 'b' || mark == 'B' then digitRun (fun c => c == '0' || c == '1') rest
      else if mark == 'o' || mark == 'O' then digitRun (fun c => '0' ≤ c && c ≤ '7') rest
      else 0
    if length == 0 then none
    else if (rest.drop length).head? == some 'n' then some (length + 3) else some (length + 2)
  | _ => none

/-- Whether a fraction or an exponent may follow digits: they are a lone zero, or have no zero in
front but one before another digit. -/
def isWholePart (digits : Text) : Bool :=
  match digits with
  | [] => false
  | '0' :: rest => rest.isEmpty || rest.head?.any fun c => '1' ≤ c && c ≤ '9'
  | _ :: _ => true

def number? (text : Text) : Option Nat :=
  match based? text with
  | some length => some length
  | none =>
    match text with
    | '.' :: rest =>
      let fraction := digitRun Char.isDigit rest
      if fraction == 0 then none
      else some (1 + fraction + exponent (rest.drop fraction))
    | _ =>
      let whole := digitRun Char.isDigit text
      if whole == 0 then none
      else
        let rest := text.drop whole
        if rest.head? == some 'n' then some (whole + 1)
        else if !isWholePart (text.take whole) then some whole
        else
          match rest with
          | '.' :: afterPoint =>
            let fraction := digitRun Char.isDigit afterPoint
            some (whole + 1 + fraction + exponent (afterPoint.drop fraction))
          | other => some (whole + exponent other)

def isEscape (text : Text) : Bool :=
  match text with
  | [] => false
  | 'x' :: rest => (rest.take 2).length == 2 && (rest.take 2).all isHex
  | 'u' :: rest => (unicodeForm? rest).isSome
  | _ => true

/-- The length of what remains of a string in quotes. A line may end in it only where nothing but
white space stands between the end of the line and the closing quote. -/
def stringBody? (quote : Char) : Text → Option Nat
  | [] => none
  | '\\' :: '\r' :: '\n' :: rest => (stringBody? quote rest).map (· + 3)
  | '\\' :: c :: rest =>
    if isEscape (c :: rest) then (stringBody? quote rest).map (· + 2) else none
  | c :: rest =>
    if c == quote then some 1
    else if c == '\\' then none
    else if c == '\n' || c == '\r' then
      let spaces := (rest.takeWhile Trivia.isSpace).length
      if (rest.drop spaces).head? == some quote then some (spaces + 2) else none
    else (stringBody? quote rest).map (· + 1)

/-- The length of a string in single or double quotes. -/
def string? (text : Text) : Option Nat :=
  match text with
  | '"' :: rest => (stringBody? '"' rest).map (· + 1)
  | '\'' :: rest => (stringBody? '\'' rest).map (· + 1)
  | _ => none

/-- The number of characters of a template up to its next mark. A template holds no NUL. -/
def templateText : Text → Nat
  | [] => 0
  | '$' :: '{' :: _ => 0
  | c :: rest =>
    if c == '\x60' || c == '\\' || c == '\x00' then 0 else 1 + templateText rest

/-- The length of a run of template characters that holds at least one. -/
def templateChars? (text : Text) : Option Nat :=
  let length := templateText text
  if length == 0 then none else some length

def templateEscape? (text : Text) : Option Nat :=
  match text with
  | '\\' :: rest => if isEscape rest then some 2 else none
  | _ => none

/-- The length of what remains of a bracketed class in a regular expression. -/
def regexClass? : Text → Option Nat
  | [] => none
  | '\\' :: c :: rest => if c == '\n' then none else (regexClass? rest).map (· + 2)
  | c :: rest =>
    if c == ']' then some 1
    else if c == '\n' || c == '\\' then none
    else (regexClass? rest).map (· + 1)

/-- The length of what remains of the pattern of a regular expression, closing slash included. -/
def regexBodyAlong : (bound text : Text) → Option Nat
  | [], _ => none
  | _ :: bound, text =>
    match text with
    | [] => none
    | '\\' :: c :: rest => if c == '\n' then none else (regexBodyAlong bound rest).map (· + 2)
    | '[' :: rest =>
      match regexClass? rest with
      | some length => (regexBodyAlong bound (rest.drop length)).map (· + (length + 1))
      | none => none
    | c :: rest =>
      if c == '/' then some 1
      else if c == '\n' || c == '\\' then none
      else (regexBodyAlong bound rest).map (· + 1)

/-- The length of a regular expression literal with its flags. -/
def regex? (text : Text) : Option Nat :=
  match text with
  | '/' :: c :: rest =>
    if c == '/' || c == '*' then none
    else
      match regexBodyAlong text (c :: rest) with
      | some length =>
        let flags := ((c :: rest).drop length).takeWhile fun c => 'a' ≤ c && c ≤ 'z'
        some (1 + length + flags.length)
      | none => none
  | _ => none

/-- The length of a character reference such as `&amp;`, `&#38;` or `&#x26;`. -/
def reference? (text : Text) : Option Nat :=
  let ended (prior : Nat) (most : Nat) (isPart : Char → Bool) (body : Text) : Option Nat :=
    let length := (body.takeWhile isPart).length
    if length == 0 || most < length then none
    else if (body.drop length).head? == some ';' then some (prior + length + 1) else none
  match text with
  | '&' :: '#' :: 'x' :: rest => ended 3 6 isHex rest
  | '&' :: '#' :: 'X' :: rest => ended 3 6 isHex rest
  | '&' :: '#' :: rest => ended 2 5 Char.isDigit rest
  | '&' :: rest => ended 1 30 Char.isAlpha rest
  | _ => none

/-- Whether a character may stand in the text of an element as it is. -/
def isMarkupText (c : Char) : Bool :=
  !(c == '\x00' || c == '<' || c == '>' || c == '{' || c == '}' || c == '&')

/-- The length of a run of plain text in an element. -/
def markupText? (text : Text) : Option Nat :=
  let length := (text.takeWhile isMarkupText).length
  if length == 0 then none else some length

def begins (literal : String) (text : Text) : Bool := literal.toList.isPrefixOf text

def isOneOf (words : List String) (word : Text) : Bool := words.any (·.toList == word)

/-- Whether the first character of a text is one of a list. -/
def headIn (signs : String) (text : Text) : Bool := text.head?.any signs.toList.contains

def beginsKey (text : Text) : Bool :=
  (word? text).isSome || (number? text).isSome || headIn "\"'#[" text

/-- The length of what remains of a quoted value of an attribute. An ampersand takes the character
behind it along, unless it may begin a character reference; then it has to be one. -/
def valueBodyAlong (quote : Char) : (bound text : Text) → Option Nat
  | [], _ => none
  | _ :: bound, text =>
    match text with
    | [] => none
    | '&' :: c :: rest =>
      if c == '#' || c.isAlpha then
        match reference? text with
        | some length => (valueBodyAlong quote bound (text.drop length)).map (· + length)
        | none => none
      else (valueBodyAlong quote bound rest).map (· + 2)
    | c :: rest =>
      if c == quote then some 1
      else if c == '&' then none
      else (valueBodyAlong quote bound rest).map (· + 1)

/-- The length of a quoted value of an attribute. It may span lines and knows no escapes. -/
def value? (text : Text) : Option Nat :=
  match text with
  | '"' :: rest => (valueBodyAlong '"' text rest).map (· + 1)
  | '\'' :: rest => (valueBodyAlong '\'' text rest).map (· + 1)
  | _ => none

def restOfLine (text : Text) : Nat := (text.takeWhile (· != '\n')).length

end FragmentLint.Grammar.Lexeme

namespace FragmentLint.Grammar.Parser

def symbol (literal : String) : Parser Unit := token (Lexeme.literal? literal.toList)

def word : Parser Unit := token Lexeme.word?

def keyword (wanted : String) : Parser Unit :=
  token fun text =>
    match Lexeme.word? text with
    | some length => if text.take length == wanted.toList then some length else none
    | none => none

def anyKeyword : List String → Parser Unit
  | [] => Parser.fail
  | first :: others => keyword first <|> anyKeyword others

def anySymbol : List String → Parser Unit
  | [] => Parser.fail
  | first :: others => symbol first <|> anySymbol others

/-- The word ahead, or nothing where no word begins. -/
def wordAhead : Parser Text := do return Lexeme.wordAt (← ahead)

def wordExcept (taken : List String) : Parser Unit := do
  check fun text => !Lexeme.isOneOf taken (Lexeme.wordAt text)
  word

def next (c : Char) : Parser Unit := check fun text => text.head? == some c

def wordAs (kind : Construct) : Parser Unit := construct kind word

/-- Reads items with commas between them; any item may be left out. -/
def sparse (item : Parser Unit) : Parser Unit := do
  optional do gaps; item
  many do
    plainGaps
    symbol ","
    optional do gaps; item
  gaps

/-- Reads items with commas between them, of which there is at least one. A comma may follow the
last one. -/
def listed (item : Parser Unit) : Parser Unit := do
  gaps
  item
  many do plainGaps; symbol ","; gaps; item
  optional do plainGaps; symbol ","
  gaps

end FragmentLint.Grammar.Parser
