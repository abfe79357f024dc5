import FragmentLint.Json.Numeral

/-!
Contract: reading JSON values.

Between the parts of a value there may be spaces, tabs, line feeds and carriage returns. Brackets
nest less than 128 deep. `Json.read` reads a text that is one value and nothing else.
-/

namespace FragmentLint.Json

/-- Whether a character may stand between the parts of a value. -/
def isBlankChar (c : Char) : Bool := c == ' ' || c == '\n' || c == '\t' || c == '\r'

/-- What follows the blank characters at the front of a text. -/
def skipBlank (text : Text) : Tail text :=
  ⟨text.dropWhile isBlankChar, (List.dropWhile_sublist _).length_le⟩

def hexDigit? (c : Char) : Option Nat :=
  if c.isDigit then some (c.toNat - '0'.toNat)
  else if 'a' ≤ c && c ≤ 'f' then some (c.toNat - 'a'.toNat + 10)
  else if 'A' ≤ c && c ≤ 'F' then some (c.toNat - 'A'.toNat + 10)
  else none

/-- Four hexadecimal digits. Of other text four bytes are read. -/
def hexQuad (text : Text) : Except Failure (Nat × Tail text) :=
  let foul : Failure :=
    if Text.bytes text < 4 then .atEnd .endInString else ⟨.invalidEscape, Text.bytes text - 4⟩
  match text with
  | a :: b :: c :: d :: rest =>
    match hexDigit? a, hexDigit? b, hexDigit? c, hexDigit? d with
    | some a, some b, some c, some d =>
      .ok (((a * 16 + b) * 16 + c) * 16 + d, ⟨rest, by simp only [List.length_cons]; omega⟩)
    | _, _, _, _ => .error foul
  | _ => .error foul

/-- The second half of a pair of escapes that stand for one character above the first plane. -/
def lowerHalf (text : Text) : Except Failure (Nat × Tail text) :=
  match text with
  | [] => .error (.atEnd .endInString)
  | '\\' :: [] => .error (.atEnd .endInString)
  | '\\' :: 'u' :: rest =>
    match hexQuad rest with
    | .error failure => .error failure
    | .ok (low, ⟨tail, tailLe⟩) =>
      if low < 0xDC00 || 0xDFFF < low then .error (.before .loneSurrogate tail)
      else .ok (low, ⟨tail, by simp only [List.length_cons]; omega⟩)
  | '\\' :: rest => .error (.atFront .endOfEscape rest)
  | text => .error (.atFront .endOfEscape text)

/-- The character behind the letter of a numeric escape. -/
def numericEscape (text : Text) : Except Failure (Char × Tail text) :=
  match hexQuad text with
  | .error failure => .error failure
  | .ok (unit, rest) =>
    if 0xDC00 ≤ unit && unit ≤ 0xDFFF then .error (.before .loneSurrogate rest.val)
    else if 0xD800 ≤ unit && unit ≤ 0xDBFF then
      (lowerHalf rest.val).map fun (low, tail) =>
        (Char.ofNat (0x10000 + (unit - 0xD800) * 0x400 + (low - 0xDC00)), rest.through tail)
    else .ok (Char.ofNat unit, rest)

/-- The characters that a letter behind a backslash stands for. -/
def shortEscapes : List (Char × Char) :=
  [('"', '"'), ('\\', '\\'), ('/', '/'), ('b', '\x08'), ('f', '\x0c'), ('n', '\n'), ('r', '\r'),
    ('t', '\t')]

/-- The character that an escape behind its backslash stands for. -/
def escaped (text : Text) : Except Failure (Char × Remainder text) :=
  match text with
  | [] => .error (.atEnd .endInString)
  | c :: rest =>
    if c == 'u' then
      (numericEscape rest).map fun (value, ⟨tail, tailLe⟩) =>
        (value, ⟨tail, Nat.lt_succ_of_le tailLe⟩)
    else
      match shortEscapes.lookup c with
      | some value => .ok (value, ⟨rest, Nat.lt_succ_self _⟩)
      | none => .error (.atFront .invalidEscape (c :: rest))

/-- A string behind its opening quote; `done` is what was read of it, last character first. -/
def stringTail (done : Text) (text : Text) : Except Failure (Text × Remainder text) :=
  match text with
  | [] => .error (.atEnd .endInString)
  | c :: rest =>
    if c == '"' then .ok (done.reverse, ⟨rest, Nat.lt_succ_self _⟩)
    else if c == '\\' then
      match escaped rest with
      | .error failure => .error failure
      | .ok (value, ⟨behind, behindLt⟩) =>
        (stringTail (value :: done) behind).map fun (whole, ⟨tail, tailLt⟩) =>
          (whole, ⟨tail, by simp only [List.length_cons]; omega⟩)
    else if c.toNat < 0x20 then .error (.atFront .controlCharacter (c :: rest))
    else
      (stringTail (c :: done) rest).map fun (whole, ⟨tail, tailLt⟩) =>
        (whole, ⟨tail, Nat.lt_succ_of_lt tailLt⟩)
termination_by text.length
decreasing_by all_goals simp only [List.length_cons]; omega

def word (value : Json) : (letters : Text) → (text : Text) → Except Failure (Json × Tail text)
  | [], text => .ok (value, ⟨text, Nat.le_refl _⟩)
  | _ :: _, [] => .error (.atEnd .endInValue)
  | letter :: letters, c :: rest =>
    if c == letter then
      (word value letters rest).map fun (value, ⟨tail, tailLe⟩) =>
        (value, ⟨tail, Nat.le_succ_of_le tailLe⟩)
    else .error (.atFront .expectedWord (c :: rest))

/-- Something that reads a value from the front of a text. -/
abbrev ValueReader := (text : Text) → Except Failure (Json × Remainder text)

/-- The items of an array from the front of one of them up to the closing bracket; `done` are the
items in front of it, last item first. -/
def items (value : ValueReader) (done : List Json) (text : Text) :
    Except Failure (List Json × Remainder text) :=
  match value text with
  | .error failure => .error failure
  | .ok (item, ⟨behind, behindLt⟩) =>
    match skipBlank behind with
    | ⟨[], _⟩ => .error (.atEnd .endInList)
    | ⟨c :: rest, restLe⟩ =>
      if c == ']' then
        .ok ((item :: done).reverse, ⟨rest, by simp only [List.length_cons] at restLe; omega⟩)
      else if c == ',' then
        match skipBlank rest with
        | ⟨[], _⟩ => .error (.atEnd .endInValue)
        | ⟨next :: others, nextLe⟩ =>
          if next == ']' then .error (.atFront .trailingComma (next :: others))
          else
            have shorter : (next :: others).length < text.length := by
              simp only [List.length_cons] at restLe nextLe ⊢
              omega
            (items value (item :: done) (next :: others)).map fun (all, ⟨tail, tailLt⟩) =>
              (all, ⟨tail, Nat.lt_trans tailLt shorter⟩)
      else .error (.atFront .expectedListComma (c :: rest))
termination_by text.length

/-- An entry of an object: its key, from the opening quote on, and its value. -/
def entry (value : ValueReader) (text : Text) :
    Except Failure ((Text × Json) × Remainder text) :=
  match text with
  | '"' :: rest =>
    match stringTail [] rest with
    | .error failure => .error failure
    | .ok (key, ⟨behind, behindLt⟩) =>
      match skipBlank behind with
      | ⟨[], _⟩ => .error (.atEnd .endInObject)
      | ⟨c :: after, afterLe⟩ =>
        if c == ':' then
          match value after with
          | .error failure => .error failure
          | .ok (item, ⟨tail, tailLt⟩) =>
            .ok ((key, item), ⟨tail, by simp only [List.length_cons] at afterLe ⊢; omega⟩)
        else .error (.atFront .expectedColon (c :: after))
  | text => .error (.atFront .keyNotString text)

/-- The entries of an object from the front of one of them up to the closing brace; `done` are the
entries in front of it, last entry first. -/
def entries (value : ValueReader) (done : List (Text × Json)) (text : Text) :
    Except Failure (List (Text × Json) × Remainder text) :=
  match entry value text with
  | .error failure => .error failure
  | .ok (item, ⟨behind, behindLt⟩) =>
    match skipBlank behind with
    | ⟨[], _⟩ => .error (.atEnd .endInObject)
    | ⟨c :: rest, restLe⟩ =>
      if c == '}' then
        .ok ((item :: done).reverse, ⟨rest, by simp only [List.length_cons] at restLe; omega⟩)
      else if c == ',' then
        match skipBlank rest with
        | ⟨[], _⟩ => .error (.atEnd .endInValue)
        | ⟨next :: others, nextLe⟩ =>
          if next == '}' then .error (.atFront .trailingComma (next :: others))
          else
            have shorter : (next :: others).length < text.length := by
              simp only [List.length_cons] at restLe nextLe ⊢
              omega
            (entries value (item :: done) (next :: others)).map fun (all, ⟨tail, tailLt⟩) =>
              (all, ⟨tail, Nat.lt_trans tailLt shorter⟩)
      else .error (.atFront .expectedObjectComma (c :: rest))
termination_by text.length

def arrayTail (value : ValueReader) (text : Text) : Except Failure (Json × Remainder text) :=
  match skipBlank text with
  | ⟨[], _⟩ => .error (.atEnd .endInList)
  | ⟨c :: rest, restLe⟩ =>
    if c == ']' then .ok (.array [], ⟨rest, restLe⟩)
    else
      (items value [] (c :: rest)).map fun (all, ⟨tail, tailLt⟩) =>
        (.array all, ⟨tail, Nat.lt_of_lt_of_le tailLt restLe⟩)

def objectTail (value : ValueReader) (text : Text) : Except Failure (Json × Remainder text) :=
  match skipBlank text with
  | ⟨[], _⟩ => .error (.atEnd .endInObject)
  | ⟨c :: rest, restLe⟩ =>
    if c == '}' then .ok (.object [], ⟨rest, restLe⟩)
    else
      (entries value [] (c :: rest)).map fun (all, ⟨tail, tailLt⟩) =>
        (.object all, ⟨tail, Nat.lt_of_lt_of_le tailLt restLe⟩)

def scalar (c : Char) (rest : Text) : Except Failure (Json × Tail rest) :=
  let weaken {α : Type} : α × Remainder rest → α × Tail rest :=
    fun (value, ⟨tail, tailLt⟩) => (value, ⟨tail, Nat.le_of_lt tailLt⟩)
  if c == 'n' then word .null "ull".toList rest
  else if c == 't' then word (.bool true) "rue".toList rest
  else if c == 'f' then word (.bool false) "alse".toList rest
  else if c == '"' then
    (stringTail [] rest).map fun found => (.string (weaken found).1, (weaken found).2)
  else if c == '-' then
    (Numeral.read true rest).map fun found => (.number (weaken found).1, (weaken found).2)
  else if c.isDigit then
    (Numeral.read false (c :: rest)).map fun (value, ⟨tail, tailLt⟩) =>
      (.number value, ⟨tail, Nat.le_of_lt_succ tailLt⟩)
  else .error (.atFront .expectedValue (c :: rest))

/-- A value with at most so many brackets within each other, behind any blank characters. -/
def value : (levels : Nat) → ValueReader
  | levels, text =>
    match skipBlank text with
    | ⟨[], _⟩ => .error (.atEnd .endInValue)
    | ⟨c :: rest, restLe⟩ =>
      let within : Json × Tail rest → Json × Remainder text :=
        fun (found, ⟨tail, tailLe⟩) =>
          (found, ⟨tail, Nat.lt_of_lt_of_le (Nat.lt_succ_of_le tailLe) restLe⟩)
      if c == '[' || c == '{' then
        match levels with
        | 0 => .error (.atFront .tooDeep (c :: rest))
        | levels + 1 =>
          let inner := value levels
          ((if c == '[' then arrayTail inner rest else objectTail inner rest).map
            fun (found, ⟨tail, tailLt⟩) => within (found, ⟨tail, Nat.le_of_lt tailLt⟩))
      else (scalar c rest).map within

/-- The number of brackets that may stand within each other. -/
def deepest : Nat := 127

def read (text : Text) : Except SyntaxError Json :=
  match value deepest text with
  | .error failure => .error (.ofFailure text failure)
  | .ok (found, ⟨rest, _⟩) =>
    match skipBlank rest with
    | ⟨[], _⟩ => .ok found
    | ⟨c :: others, _⟩ =>
      .error (.ofFailure text (.atFront .trailingText (c :: others)))

end FragmentLint.Json
