/-!
# Shortest decimals of binary numbers

A binary floating-point number stands for every real number that rounds to it. Among the
decimals in that interval the shortest is chosen, and among the shortest the one nearest to
the number itself. All arithmetic is exact, on natural numbers.
-/

namespace TypedCql

/-- A natural number of digits and the power of ten it is multiplied with. -/
structure Decimal where
  digits : Nat
  exponent : Int
  deriving Repr, DecidableEq

/-- A positive number `mantissa * 2 ^ exponent` of a binary format. -/
structure Dyadic where
  mantissa : Nat
  exponent : Int
  /-- Whether the next number below is half as far away as the next one above. -/
  closeBelow : Bool
  deriving Repr, DecidableEq

/-- What is done when two decimals are equally near. -/
inductive Tie
  | up
  | even
  deriving Repr, DecidableEq

/-- How a binary interchange format divides its bits. -/
structure BinaryFormat where
  fractionBits : Nat
  exponentBits : Nat

namespace BinaryFormat

def single : BinaryFormat := ⟨23, 8⟩

def double : BinaryFormat := ⟨52, 11⟩

def bias (f : BinaryFormat) : Nat := Nat.pow 2 (f.exponentBits - 1) - 1

def fraction (f : BinaryFormat) (bits : Nat) : Nat := bits % Nat.pow 2 f.fractionBits

def exponentField (f : BinaryFormat) (bits : Nat) : Nat :=
  bits / Nat.pow 2 f.fractionBits % Nat.pow 2 f.exponentBits

def isNegative (f : BinaryFormat) (bits : Nat) : Bool :=
  bits / Nat.pow 2 (f.fractionBits + f.exponentBits) % 2 == 1

/-- The magnitude of a finite number; zero has the mantissa `0`. Numbers with the least
exponent field have no leading bit of their own. -/
def magnitude (f : BinaryFormat) (bits : Nat) : Dyadic :=
  let fraction := f.fraction bits
  let exponent := f.exponentField bits
  if exponent = 0 then
    ⟨fraction, 1 - (f.bias : Int) - f.fractionBits, false⟩
  else
    ⟨Nat.pow 2 f.fractionBits + fraction, exponent - (f.bias : Int) - f.fractionBits,
      fraction = 0 ∧ exponent > 1⟩

end BinaryFormat

namespace Dyadic

/-- The interval of the real numbers that round to a number, with the number itself, as
numerators over one denominator. The ends belong to it iff the mantissa is even. -/
structure Interval where
  low : Nat
  value : Nat
  high : Nat
  denominator : Nat
  closed : Bool

def interval (x : Dyadic) : Interval :=
  let exponent := x.exponent - 2
  let up := Nat.pow 2 exponent.toNat
  { low := (4 * x.mantissa - if x.closeBelow then 1 else 2) * up
    value := 4 * x.mantissa * up
    high := (4 * x.mantissa + 2) * up
    denominator := Nat.pow 2 (-exponent).toNat
    closed := x.mantissa % 2 = 0 }

/-- The exponent of the leading decimal digit of `numerator / denominator`. -/
def leadingExponent (numerator denominator : Nat) : Int :=
  if denominator ≤ numerator then
    ((Nat.toDigits 10 (numerator / denominator)).length : Int) - 1
  else
    let places := (Nat.toDigits 10 (denominator / numerator)).length
    if denominator ≤ numerator * Nat.pow 10 (places - 1) then 1 - (places : Int)
    else -(places : Int)

/-- The decimal in the interval that lies on the grid of the multiples of
`10 ^ exponent` and is nearest to the number, if there is one. Only the two neighbours of the
number can be it. -/
def Interval.onGrid (i : Interval) (tie : Tie) (exponent : Int) : Option Decimal :=
  let scale := Nat.pow 10 (-exponent).toNat
  let unit := i.denominator * Nat.pow 10 exponent.toNat
  let value := i.value * scale
  let below := value / unit
  let inside (n : Nat) : Bool :=
    if i.closed then i.low * scale ≤ n * unit && n * unit ≤ i.high * scale
    else i.low * scale < n * unit && n * unit < i.high * scale
  let toBelow := value - below * unit
  let toAbove := (below + 1) * unit - value
  if inside below && below ≠ 0 then
    if inside (below + 1) && (toAbove < toBelow ||
        (toAbove == toBelow && (tie == .up || below % 2 == 1))) then
      some ⟨below + 1, exponent⟩
    else some ⟨below, exponent⟩
  else if inside (below + 1) then some ⟨below + 1, exponent⟩
  else none

/-- The digits without zeros at the end. -/
def trimZeros : Nat → Decimal → Decimal
  | 0, d => d
  | fuel + 1, d =>
    if d.digits ≠ 0 ∧ d.digits % 10 = 0 then trimZeros fuel ⟨d.digits / 10, d.exponent + 1⟩
    else d

/-- The shortest decimal that rounds to a positive number, the nearest one where there are
several. Seventeen digits are enough for every format of up to 64 bits. -/
def shortest (tie : Tie) (x : Dyadic) : Decimal :=
  let i := x.interval
  let top := leadingExponent i.value i.denominator
  let found := (List.range 18).findSome? fun (n : Nat) => i.onGrid tie (top - n)
  trimZeros 20 (found.getD ⟨0, 0⟩)

end Dyadic

end TypedCql
