import FragmentLint.Decimal.Shortest
import FragmentLint.Text

/-!
Contract: JSON values and how they are written.

Numbers are kept as natural numbers, as negative integers, or as the bits of a double, which is how
messages about them tell them apart. An object keeps its entries in order; if a key occurs twice the
last entry counts.
-/

namespace FragmentLint

/-- A number in JSON. -/
inductive JsonNumber where
  | natural (value : Nat)
  /-- The integer that is `magnitude` below zero. -/
  | negative (magnitude : Nat)
  | float (bits : UInt64)
deriving DecidableEq, Repr, Inhabited

/-- A JSON value. -/
inductive Json where
  | null
  | bool (value : Bool)
  | number (value : JsonNumber)
  | string (value : Text)
  | array (items : List Json)
  | object (entries : List (Text × Json))
deriving Repr, Inhabited

namespace JsonNumber

/-- Doubles are written with an exponent from this power of ten on. -/
def firstLongExponent : Int := 16

/-- Doubles are written without an exponent from this power of ten on. -/
def firstShortExponent : Int := -5

/-- Positive digits with a decimal point, or with an exponent where there would be too many
zeros. -/
def digitsText (digits : Decimal.Digits) : String :=
  let written := toString digits.value
  let count := written.length
  let leading : Int := digits.exponent + count - 1
  if leading < firstShortExponent || firstLongExponent ≤ leading then
    let tail := (written.drop 1).toString
    let mantissa := (written.take 1).toString ++ if tail.isEmpty then "" else "." ++ tail
    mantissa ++ "e" ++ (if leading < 0 then "-" else "+") ++ toString leading.natAbs
  else if digits.exponent ≥ 0 then
    written ++ String.ofList (List.replicate digits.exponent.toNat '0') ++ ".0"
  else if leading ≥ 0 then
    let whole := leading.toNat + 1
    (written.take whole).toString ++ "." ++ (written.drop whole).toString
  else
    "0." ++ String.ofList (List.replicate (leading.natAbs - 1) '0') ++ written

/-- The shortest decimal that reads back as a double, with at least one digit behind the point. -/
def floatText (bits : UInt64) : String :=
  let sign := if bits.toNat < 0x8000000000000000 then "" else "-"
  match Decimal.Binary.ofBits? bits with
  | some number => sign ++ digitsText number.shortest
  | none => sign ++ "0.0"

def display : JsonNumber → String
  | natural value => toString value
  | negative magnitude => "-" ++ toString magnitude
  | float bits => floatText bits

end JsonNumber

namespace Json

def field? (key : Text) : Json → Option Json
  | object entries => (entries.reverse.find? fun entry => entry.1 == key).map Prod.snd
  | _ => none

def record (entries : List (String × Json)) : Json :=
  object (entries.map fun (key, value) => (key.toList, value))

def ofString (value : String) : Json := string value.toList

def ofNat (value : Nat) : Json := number (.natural value)

def ofOption {α : Type} (encode : α → Json) : Option α → Json
  | some value => encode value
  | none => null

def text? : Json → Option Text
  | string value => some value
  | _ => none

def nat? : Json → Option Nat
  | number (.natural value) => some value
  | _ => none

def items? : Json → Option (List Json)
  | array items => some items
  | _ => none

def escape (c : Char) : Text :=
  if c == '"' then ['\\', '"']
  else if c == '\\' then ['\\', '\\']
  else if c == '\n' then ['\\', 'n']
  else if c.toNat < 0x20 then
    let digits := Nat.toDigits 16 c.toNat
    "\\u".toList ++ List.replicate (4 - digits.length) '0' ++ digits
  else [c]

def quote (text : Text) : String :=
  String.ofList ('"' :: (text.flatMap escape ++ ['"']))

mutual
def render : Json → String
  | .null => "null"
  | .bool value => if value then "true" else "false"
  | .number value => value.display
  | .string value => quote value
  | .array items => "[" ++ renderItems items ++ "]"
  | .object entries => "\x7b" ++ renderEntries entries ++ "\x7d"

/-- The items of an array with commas between them. -/
def renderItems : List Json → String
  | [] => ""
  | [only] => render only
  | first :: rest => render first ++ "," ++ renderItems rest

/-- The entries of an object with commas between them. -/
def renderEntries : List (Text × Json) → String
  | [] => ""
  | [(key, value)] => quote key ++ ":" ++ render value
  | (key, value) :: rest => quote key ++ ":" ++ render value ++ "," ++ renderEntries rest
end

end Json

end FragmentLint
