/-!
Contract: the shortest decimal that reads back as a given binary floating-point number.

A finite number is `m * 2 ^ q`, and the reals that round to it form an interval, whose ends belong
to it exactly when `m` is even. For 1, 2, ... 17 digits the two neighbours of the number on that
decimal grid are tried; the first grid with a neighbour in the interval wins, and of two neighbours
the nearer one, and of two equally near ones the even one.

All arithmetic is on natural numbers.
-/

namespace FragmentLint.Decimal

/-- A positive finite number `mantissa * 2 ^ exponent`, and whether the interval below it is half as
wide as the one above. -/
structure Binary where
  mantissa : Nat
  exponent : Int
  narrowBelow : Bool
deriving DecidableEq, Repr

/-- A positive decimal: its digits as a number, and the power of ten they are multiplied with. -/
structure Digits where
  value : Nat
  exponent : Int
deriving DecidableEq, Repr

/-- The number of fractions that a double distinguishes: it has 52 bits for them. -/
def fractionRange : Nat := 0x10000000000000

/-- The number that the lower 63 bits of a double stand for; `none` for zero, infinity, and what is
no number. -/
def Binary.ofBits? (bits : UInt64) : Option Binary :=
  let fraction := bits.toNat % fractionRange
  let scale : Nat := bits.toNat / fractionRange % 0x800
  if scale == 0x7FF then none
  else if scale == 0 then
    if fraction == 0 then none else some ⟨fraction, -1074, false⟩
  else some ⟨fractionRange + fraction, (scale : Int) - 1075, fraction == 0 && scale != 1⟩

/-- A number scaled to a fraction: `numerator / denominator`, with the ends of its interval over the
same denominator. -/
structure Scaled where
  value : Nat
  low : Nat
  high : Nat
  denominator : Nat
  closed : Bool
deriving Repr

/-- A number and its interval, divided by a power of ten. -/
def Binary.scale (number : Binary) (power : Int) : Scaled :=
  let up := number.exponent.toNat
  let down := (-number.exponent).toNat
  let factor := Nat.pow 2 up * Nat.pow 10 (-power).toNat
  { value := 4 * number.mantissa * factor
    low := (4 * number.mantissa - if number.narrowBelow then 1 else 2) * factor
    high := (4 * number.mantissa + 2) * factor
    denominator := 4 * Nat.pow 2 down * Nat.pow 10 power.toNat
    closed := number.mantissa % 2 == 0 }

def Scaled.holds (scaled : Scaled) (candidate : Nat) : Bool :=
  let point := candidate * scaled.denominator
  if scaled.closed then scaled.low ≤ point && point ≤ scaled.high
  else scaled.low < point && point < scaled.high

/-- The neighbour on the grid of whole numbers that lies in the interval; the nearer one if both
do. -/
def Scaled.nearest? (scaled : Scaled) : Option Nat :=
  let below := scaled.value / scaled.denominator
  let rest := scaled.value % scaled.denominator
  let above := below + 1
  let upFirst := 2 * rest > scaled.denominator
    || (2 * rest == scaled.denominator && below % 2 == 1)
  match below != 0 && scaled.holds below, scaled.holds above with
  | true, true => some (if upFirst then above else below)
  | true, false => some below
  | false, true => some above
  | false, false => none

/-- The power of ten of the first digit of a number: the largest one that is not above it, found
downwards from an upper bound. -/
def Binary.leading (number : Binary) (bound : Int) : Nat → Int
  | 0 => bound
  | steps + 1 =>
    let scaled := number.scale bound
    if scaled.denominator ≤ scaled.value then bound else number.leading (bound - 1) steps

/-- The first grid, from `count` digits on, with a neighbour in the interval. -/
def Binary.search (number : Binary) (leading : Int) (count : Nat) : Nat → Digits
  | 0 => ⟨0, 0⟩
  | left + 1 =>
    let power := leading - count + 1
    match (number.scale power).nearest? with
    | some value => ⟨value, power⟩
    | none => number.search leading (count + 1) left

def Digits.strip (digits : Digits) : Nat → Digits
  | 0 => digits
  | steps + 1 =>
    if digits.value % 10 == 0 && digits.value != 0 then
      Digits.strip ⟨digits.value / 10, digits.exponent + 1⟩ steps
    else digits

/-- The shortest decimal that reads back as a number. -/
def Binary.shortest (number : Binary) : Digits :=
  (number.search (number.leading 309 640) 1 17).strip 20

end FragmentLint.Decimal
