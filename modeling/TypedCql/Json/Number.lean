import TypedCql.Decimal.Layout
import TypedCql.Json.Basic

/-!
# Numbers in JSON documents

A number without point and exponent is an integer if one of 64 bits can hold it, signed where
it is negative; `-0` is none. Every other number is a floating-point one. It is found by
scaling the leading digits, as many as 64 bits can hold, by a power of ten, with the rounding
of floating-point arithmetic at every step; a number too large for the type is refused.
-/

namespace TypedCql

namespace Json

/-- The digits of a number apart from each other. -/
structure NumberParts where
  negative : Bool
  whole : List Char
  /-- The digits after the point, if there is one. -/
  fraction : Option (List Char)
  /-- The sign and the digits of the exponent, if there is one. -/
  exponent : Option (Bool × List Char)

/-- The parts of a spelling that the grammar allows. -/
def numberParts (spelling : List Char) : NumberParts :=
  let negative := spelling.head? = some '-'
  let cs := if negative then spelling.drop 1 else spelling
  let whole := cs.takeWhile Char.isDigit
  let cs := cs.dropWhile Char.isDigit
  let fraction := match cs with
    | '.' :: rest => some (rest.takeWhile Char.isDigit)
    | _ => none
  let cs := match cs with
    | '.' :: rest => rest.dropWhile Char.isDigit
    | cs => cs
  let exponent := match cs with
    | _ :: '-' :: digits => some (true, digits)
    | _ :: '+' :: digits => some (false, digits)
    | _ :: digits => some (false, digits)
    | [] => none
  ⟨negative, whole, fraction, exponent⟩

def digitsValue (digits : List Char) : Nat :=
  digits.foldl (fun n c => n * 10 + (c.toNat - '0'.toNat)) 0

/-- The integer that a spelling stands for. -/
def integerOf? (spelling : String) : Option Int :=
  let p := numberParts spelling.toList
  if p.fraction.isNone ∧ p.exponent.isNone then
    let n := digitsValue p.whole
    if p.negative then
      if 0 < n ∧ Int64.minValue.toInt ≤ -(n : Int) then some (-(n : Int)) else none
    else if n < UInt64.size then some n else none
  else none

/-- A power of ten as a floating-point number. -/
def powerOfTen (exponent : Nat) : Float := OfScientific.ofScientific 1 false exponent

/-- A number times a power of ten. Powers beyond the largest that the type holds are divided
off one by one. -/
def scaled (fuel : Nat) (x : Float) (exponent : Int) : Option Float :=
  if exponent.natAbs ≤ 308 then
    if exponent ≥ 0 then
      let y := x * powerOfTen exponent.toNat
      if y.isInf then none else some y
    else some (x / powerOfTen exponent.natAbs)
  else
    match fuel with
    | 0 => none
    | fuel + 1 =>
      if x == 0.0 then some x
      else if exponent ≥ 0 then none
      else scaled fuel (x / powerOfTen 308) (exponent + 308)

/-- The leading digits as one number, and how many of the digits it holds. -/
def leadingDigits : Nat → Nat → List Char → Nat × Nat
  | n, count, [] => (n, count)
  | n, count, c :: rest =>
    let next := n * 10 + (c.toNat - '0'.toNat)
    if next < UInt64.size then leadingDigits next (count + 1) rest else (n, count)

/-- The magnitude of a number. Digits before the point that are left out count for the
exponent, those after it that are taken count against it. -/
def magnitudeOf? (p : NumberParts) : Option Float :=
  let (n, count) := leadingDigits 0 0 p.whole
  let (n, places) := leadingDigits n 0 (p.fraction.getD [])
  let exponent : Int := (p.whole.length : Int) - count - places
  let (negative, digits) := p.exponent.getD (false, [])
  let given := digitsValue digits
  if Int32.maxValue.toInt < given then
    if n ≠ 0 ∧ !negative then none else some 0.0
  else
    scaled 20 (UInt64.ofNat n).toFloat (if negative then exponent - given else exponent + given)

/-- The floating-point number that a spelling stands for. -/
def floatOf? (spelling : String) : Option Float :=
  match integerOf? spelling with
  | some n =>
    some (if n < 0 then (Int64.ofInt n).toFloat else (UInt64.ofNat n.toNat).toFloat)
  | none => do
    let p := numberParts spelling.toList
    let x ← magnitudeOf? p
    return if p.negative then -x else x

/-- The single-precision number that a spelling stands for. Integers are rounded once. -/
def singleOf? (spelling : String) : Option Float32 :=
  match integerOf? spelling with
  | some n =>
    some (if n < 0 then (Int64.ofInt n).toFloat32 else (UInt64.ofNat n.toNat).toFloat32)
  | none => (floatOf? spelling).map Float.toFloat32

/-! ## Writing -/

/-- Doubles are positional from `10 ^ -5` to below `10 ^ 16`, and whole ones keep a point.
Exponents always carry a sign. -/
def doubleLayout : FloatLayout := ⟨.even, fun e => -5 ≤ e ∧ e ≤ 15, "+", ".0", "null", "null"⟩

/-- Singles are positional from `10 ^ -6` to below `10 ^ 13`. -/
def singleLayout : FloatLayout := ⟨.even, fun e => -6 ≤ e ∧ e ≤ 12, "+", ".0", "null", "null"⟩

/-- A double; null stands for one that is no finite number. -/
def ofDouble (x : Float) : Json :=
  if x.isFinite then .number (doubleLayout.ofDouble x) else .null

/-- A single; null stands for one that is no finite number. -/
def ofSingle (x : Float32) : Json :=
  if x.isFinite then .number (singleLayout.ofSingle x) else .null

end Json

end TypedCql
