import FragmentLint.Text

/-!
Contract: percent-encoding: bytes written as a percent sign and two hexadecimal digits.

Main statement: what does not need to be encoded stays as it is (`encode_eq_self`).
-/

namespace FragmentLint.Percent

/-- A digit of a hexadecimal number, as a capital letter above nine. -/
def digit (value : Nat) : Char :=
  if value < 10 then Char.ofNat ('0'.toNat + value) else Char.ofNat ('A'.toNat + (value - 10))

def value? (c : Char) : Option Nat :=
  if c.isDigit then some (c.toNat - '0'.toNat)
  else if 'A' ≤ c && c ≤ 'F' then some (c.toNat - 'A'.toNat + 10)
  else if 'a' ≤ c && c ≤ 'f' then some (c.toNat - 'a'.toNat + 10)
  else none

def encodeByte (byte : UInt8) : Text :=
  ['%', digit (byte.toNat / 16), digit (byte.toNat % 16)]

/-- Whether a character is encoded whatever the place: controls and all that is not ASCII. -/
def isAlwaysEncoded (c : Char) : Bool := c.toNat < 0x20 || 0x7E < c.toNat

/-- A text in which the characters of a set are encoded byte by byte. -/
def encode (reserved : Char → Bool) (text : Text) : Text :=
  text.flatMap fun c =>
    if isAlwaysEncoded c || reserved c then (String.utf8EncodeChar c).flatMap encodeByte else [c]

/-- The bytes of a text, with encoded ones decoded. A percent sign without two digits stands for
itself. -/
def decodeBytes : Text → List UInt8
  | [] => []
  | '%' :: high :: low :: rest =>
    match value? high, value? low with
    | some high, some low => UInt8.ofNat (high * 16 + low) :: decodeBytes rest
    | _, _ => '%'.toUInt8 :: decodeBytes (high :: low :: rest)
  | c :: rest => String.utf8EncodeChar c ++ decodeBytes rest

/-- A text with encoded bytes decoded. If these do not make up characters, every byte outside ASCII
becomes a replacement character. -/
def decode (text : Text) : Text :=
  let bytes := decodeBytes text
  match String.fromUTF8? ⟨bytes.toArray⟩ with
  | some decoded => decoded.toList
  | none => bytes.map fun byte => if byte < 0x80 then Char.ofNat byte.toNat else '\ufffd'

/-- A text without characters to encode stays as it is. -/
theorem encode_eq_self {reserved : Char → Bool} {text : Text}
    (plain : ∀ c ∈ text, isAlwaysEncoded c = false ∧ reserved c = false) :
    encode reserved text = text := by
  induction text with
  | nil => rfl
  | cons c rest inductionHypothesis =>
    have first := plain c List.mem_cons_self
    have others := inductionHypothesis fun d member => plain d (List.mem_cons_of_mem c member)
    unfold encode at others ⊢
    rw [List.flatMap_cons, others]
    simp [first.1, first.2]

end FragmentLint.Percent
