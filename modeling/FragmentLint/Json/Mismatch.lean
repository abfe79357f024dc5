import FragmentLint.Json.Value
import FragmentLint.Text.Quoted

/-!
Contract: JSON values of the wrong shape, and reading values of the right one.

Owns: what is said about a value that is not what was expected, and the readers that the decoders of
settings and of requests are made of.
-/

namespace FragmentLint.Json

/-- How a value differs from what was expected. -/
inductive Mismatch where
  | invalidType (found : Json) (expected : String)
  /-- A value of the right type that is out of range. -/
  | invalidValue (found : Json) (expected : String)
  /-- An array of so many items, which are too many. -/
  | invalidLength (count : Nat)
  | missingField (key : String)
deriving Repr

/-- What a value is called when it is not what was expected. -/
def describe : Json → String
  | null => "null"
  | bool value => "boolean \x60" ++ (if value then "true" else "false") ++ "\x60"
  | number (.float bits) => "floating point \x60" ++ JsonNumber.floatText bits ++ "\x60"
  | number value => "integer \x60" ++ value.display ++ "\x60"
  | string value => "string " ++ Text.toString (Text.Quoted.encode value)
  | array _ => "sequence"
  | object _ => "map"

namespace Mismatch

def message : Mismatch → String
  | invalidType found expected => "invalid type: " ++ found.describe ++ ", expected " ++ expected
  | invalidValue found expected =>
    "invalid value: " ++ found.describe ++ ", expected " ++ expected
  | invalidLength count =>
    "invalid length " ++ toString count ++ ", expected fewer elements in array"
  | missingField key => "missing field \x60" ++ key ++ "\x60"

end Mismatch

/-- Something that reads a value of a certain shape. -/
abbrev Decoder (α : Type) := Json → Except Mismatch α

def decodeText : Decoder Text
  | string value => .ok value
  | other => .error (.invalidType other "a string")

def decodeNatural : Decoder Nat
  | number (.natural value) =>
    if value < 0x100000000 then .ok value
    else .error (.invalidValue (number (.natural value)) "u32")
  | number (.negative magnitude) => .error (.invalidValue (number (.negative magnitude)) "u32")
  | other => .error (.invalidType other "u32")

def decodeInteger : Decoder Int
  | number (.natural value) =>
    if value < 0x80000000 then .ok value
    else .error (.invalidValue (number (.natural value)) "i32")
  | number (.negative magnitude) =>
    if magnitude ≤ 0x80000000 then .ok (-magnitude)
    else .error (.invalidValue (number (.negative magnitude)) "i32")
  | other => .error (.invalidType other "i32")

def decodeItems {α : Type} (decode : Decoder α) : Decoder (List α)
  | array items => items.mapM decode
  | other => .error (.invalidType other "a sequence")

/-- Something in the field of an object that must have it. -/
def decodeField {α : Type} (key : String) (decode : Decoder α) (value : Json) :
    Except Mismatch α :=
  match value.field? key.toList with
  | some found => decode found
  | none => .error (.missingField key)

/-- An object, under the name of the structure that it is expected to be. -/
def decodeObject {α : Type} (name : String) (decode : Decoder α) : Decoder α
  | object entries => decode (object entries)
  | other => .error (.invalidType other ("struct " ++ name))

/-- A value of some shape, or null for its absence. -/
def decodeOption {α : Type} (decode : Decoder α) : Decoder (Option α)
  | null => .ok none
  | value => (decode value).map some

def decodeAbsent {α : Type} (decode : Decoder α) : Option Json → Except Mismatch (Option α)
  | none => .ok none
  | some value => decodeOption decode value

end FragmentLint.Json
