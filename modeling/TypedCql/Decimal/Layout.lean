import TypedCql.Decimal.Shortest

/-!
# Floating-point numbers as text

A layout holds everything a format decides for itself: where positional notation ends, how an
exponent is signed, whether a whole number keeps its point, and the words for the values that are
no numbers.
-/

namespace TypedCql

structure FloatLayout where
  tie : Tie
  /-- Whether a number with this exponent of its leading digit is written positionally. -/
  positional : Int → Bool
  /-- Written between `e` and an exponent that is not negative. -/
  exponentSign : String
  /-- Written after a whole number. -/
  wholeEnding : String
  nan : String
  infinity : String

namespace FloatLayout

/-- The digits with the point where the exponent of the leading digit puts it. -/
def positionalText (l : FloatLayout) (digits : List Char) (leading : Int) : String :=
  if leading < 0 then
    String.ofList ('0' :: '.' :: (List.replicate (-leading - 1).toNat '0' ++ digits))
  else
    let whole := leading.toNat + 1
    if digits.length ≤ whole then
      String.ofList (digits ++ List.replicate (whole - digits.length) '0') ++ l.wholeEnding
    else
      String.ofList (digits.take whole ++ '.' :: digits.drop whole)

/-- One digit before the point, and the exponent of that digit. -/
def exponentText (l : FloatLayout) (digits : List Char) (leading : Int) : String :=
  let mantissa :=
    match digits with
    | first :: rest@(_ :: _) => first :: '.' :: rest
    | digits => digits
  String.ofList mantissa ++ "e" ++ (if leading < 0 then "" else l.exponentSign)
    ++ toString leading

/-- A decimal that is not zero. -/
def decimalText (l : FloatLayout) (d : Decimal) : String :=
  let digits := Nat.toDigits 10 d.digits
  let leading := d.exponent + digits.length - 1
  if l.positional leading then l.positionalText digits leading
  else l.exponentText digits leading

/-- The number with the given bits of a format. Zero keeps its sign. -/
def text (l : FloatLayout) (f : BinaryFormat) (bits : Nat) : String :=
  let sign := if f.isNegative bits then "-" else ""
  if f.exponentField bits = Nat.pow 2 f.exponentBits - 1 then
    if f.fraction bits = 0 then sign ++ l.infinity else l.nan
  else
    let x := f.magnitude bits
    if x.mantissa = 0 then sign ++ "0" ++ l.wholeEnding
    else sign ++ l.decimalText (x.shortest l.tie)

def ofDouble (l : FloatLayout) (x : Float) : String :=
  l.text .double x.toBits.toNat

def ofSingle (l : FloatLayout) (x : Float32) : String :=
  l.text .single x.toBits.toNat

end FloatLayout

end TypedCql
