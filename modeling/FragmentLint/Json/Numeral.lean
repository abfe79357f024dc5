import FragmentLint.Json.Fault
import FragmentLint.Json.Value

/-!
Contract: reading numbers.

A number without a fraction and without an exponent is an integer if 64 bits hold it. Any other
number is a double: the digits that fit 64 bits, scaled by a power of ten in one step of rounded
arithmetic. A number too large for a double is a fault; one too small for it is zero.
-/

namespace FragmentLint.Json

/-- What is left of a text after something was read. -/
abbrev Remainder (text : Text) := { rest : Text // rest.length < text.length }

/-- What is left of a text after something, or nothing, was read. -/
abbrev Tail (text : Text) := { rest : Text // rest.length ≤ text.length }

/-- What is left of something that is left is left of the whole. -/
def Tail.through {text : Text} (rest : Tail text) (tail : Tail rest.val) : Tail text :=
  ⟨tail.val, Nat.le_trans tail.property rest.property⟩

namespace Numeral

def largest : Nat := 0xFFFFFFFFFFFFFFFF

/-- The largest exponent that is not too large by itself. -/
def largestExponent : Nat := 0x7FFFFFFF

def largestPower : Nat := 308

def digits (text : Text) : List Nat × Tail text :=
  ((text.takeWhile Char.isDigit).map fun c => c.toNat - '0'.toNat,
    ⟨text.dropWhile Char.isDigit, (List.dropWhile_sublist _).length_le⟩)

/-- Appends digits to a number until one would take it above a limit. That digit and those behind it
are left over. -/
def absorb (limit : Nat) : Nat → List Nat → Nat × List Nat
  | value, [] => (value, [])
  | value, digit :: rest =>
    if limit < value * 10 + digit then (value, digit :: rest)
    else absorb limit (value * 10 + digit) rest

/-- A double times a power of ten; `none` if that is too large. Numbers are scaled down in steps, at
most `steps` of them, after which nothing is left. -/
def scale (value : Float) (exponent : Int) : (steps : Nat) → Option Float
  | 0 => some value
  | steps + 1 =>
    let power := Float.ofScientific 1 false (min exponent.natAbs largestPower)
    if exponent.natAbs ≤ largestPower then
      if 0 ≤ exponent then
        if (value * power).isInf then none else some (value * power)
      else some (value / power)
    else if value == 0 then some value
    else if 0 ≤ exponent then none
    else scale (value / power) (exponent + largestPower) steps

def signed (negative : Bool) (value : Float) : JsonNumber :=
  .float (if negative then -value else value).toBits

/-- The double for digits and a power of ten, in front of the rest of a text. -/
def double (negative : Bool) (significand : Nat) (exponent : Int) (rest : Text) :
    Except Failure JsonNumber :=
  match scale significand.toUInt64.toFloat exponent 3 with
  | some value => .ok (signed negative value)
  | none => .error (.before .numberOutOfRange rest)

/-- The sign in front of an exponent: whether it is a minus, and what follows. -/
def exponentSign (text : Text) : Bool × Tail text :=
  match text with
  | '+' :: rest => (false, ⟨rest, Nat.le_succ _⟩)
  | '-' :: rest => (true, ⟨rest, Nat.le_succ _⟩)
  | text => (false, ⟨text, Nat.le_refl _⟩)

/-- The exponent behind its mark, which completes a number. -/
def exponentPart (negative : Bool) (significand : Nat) (exponent : Int) (text : Text) :
    Except Failure (JsonNumber × Tail text) :=
  let (down, unsigned) := exponentSign text
  let (written, rest) := digits unsigned.val
  let tail := unsigned.through rest
  if written.isEmpty then
    .error (if unsigned.val.isEmpty then .atEnd .endInValue
      else .atFront .invalidNumber unsigned.val)
  else
    let (power, excess) := absorb largestExponent 0 written
    if excess.isEmpty then
      let total : Int := if down then exponent - power else exponent + power
      (double negative significand total tail.val).map (·, tail)
    else if significand != 0 && !down then
      .error ⟨.numberOutOfRange, Text.bytes tail.val + excess.length - 1⟩
    else .ok (signed negative 0, tail)

/-- An exponent if there is one; it completes a number. -/
def optionalExponent (negative : Bool) (significand : Nat) (exponent : Int) (text : Text) :
    Except Failure (JsonNumber × Tail text) :=
  match text with
  | [] => (double negative significand exponent []).map (·, ⟨[], Nat.le_refl _⟩)
  | c :: rest =>
    if c == 'e' || c == 'E' then
      (exponentPart negative significand exponent rest).map fun (value, ⟨tail, tailLe⟩) =>
        (value, ⟨tail, Nat.le_succ_of_le tailLe⟩)
    else (double negative significand exponent (c :: rest)).map (·, ⟨c :: rest, Nat.le_refl _⟩)

/-- The fraction behind its point and an exponent, which complete a number. -/
def fractionPart (negative : Bool) (significand : Nat) (exponent : Int) (text : Text) :
    Except Failure (JsonNumber × Tail text) :=
  let (written, rest) := digits text
  if written.isEmpty then
    .error (if text.isEmpty then .atEnd .endInValue else .atFront .invalidNumber text)
  else
    let (longer, excess) := absorb largest significand written
    let places := written.length - excess.length
    (optionalExponent negative longer (exponent - places) rest.val).map
      fun (value, tail) => (value, rest.through tail)

/-- The integer of a magnitude and a sign. There is no negative zero among the integers, and none
below the range of 64 bits: these are doubles. -/
def integer (negative : Bool) (magnitude : Nat) : JsonNumber :=
  if !negative then .natural magnitude
  else if magnitude == 0 || 0x8000000000000000 < magnitude then
    signed true magnitude.toUInt64.toFloat
  else .negative magnitude

/-- What follows the whole digits of a number and completes it. -/
def afterWhole (negative : Bool) (whole : List Nat) (text : Text) :
    Except Failure (JsonNumber × Tail text) :=
  let (significand, excess) := absorb largest 0 whole
  match text with
  | '.' :: rest =>
    (fractionPart negative significand excess.length rest).map fun (value, ⟨tail, tailLe⟩) =>
      (value, ⟨tail, Nat.le_succ_of_le tailLe⟩)
  | text =>
    let marked := text.head?.any fun c => c == 'e' || c == 'E'
    if marked || !excess.isEmpty then optionalExponent negative significand excess.length text
    else .ok (integer negative significand, ⟨text, Nat.le_refl _⟩)

def read (negative : Bool) (text : Text) : Except Failure (JsonNumber × Remainder text) :=
  match text with
  | [] => .error (.atEnd .endInValue)
  | c :: behind =>
    if !c.isDigit then .error (.atFront .invalidNumber (c :: behind))
    else
      let (others, ⟨rest, restLe⟩) := digits behind
      if c == '0' && !others.isEmpty then .error (.atFront .invalidNumber behind)
      else
        (afterWhole negative ((c.toNat - '0'.toNat) :: others) rest).map
          fun (value, ⟨tail, tailLe⟩) =>
            (value, ⟨tail, Nat.lt_succ_of_le (Nat.le_trans tailLe restLe)⟩)

end Numeral

end FragmentLint.Json
