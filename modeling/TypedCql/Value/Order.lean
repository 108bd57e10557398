import TypedCql.Value.Basic

/-!
# Comparing values

Numbers of all four types compare with each other, and texts, booleans, identifiers and
instants each among themselves; nothing else has an order. Values are equal when they compare
as equal or, where no order is defined, when they are alike in structure.
-/

namespace TypedCql

/-- A number of any of the numeric types. -/
inductive Number
  /-- An integer, and whether its type is the wide one. -/
  | integer (n : Int64) (wide : Bool)
  | floating (x : Float)

namespace Number

def toFloat : Number → Float
  | .integer n _ => n.toFloat
  | .floating x => x

/-- The order of floating-point numbers, undefined where one of them is no number. -/
def compareFloats (x y : Float) : Option Ordering :=
  if x < y then some .lt
  else if x == y then some .eq
  else if y < x then some .gt
  else none

/-- Integers compare exactly; otherwise both numbers are taken as floating-point ones. -/
def compare : Number → Number → Option Ordering
  | .integer a _, .integer b _ => some (Ord.compare a.toInt b.toInt)
  | a, b => compareFloats a.toFloat b.toFloat

end Number

namespace Value

def number? : Value → Option Number
  | .int n => some (.integer n.toInt64 false)
  | .bigint n => some (.integer n true)
  | .float x => some (.floating x.toFloat)
  | .double x => some (.floating x)
  | _ => none

/-- Text is ordered by code points, `false` comes before `true`. -/
def compare? (a b : Value) : Option Ordering :=
  match a.number?, b.number? with
  | some x, some y => x.compare y
  | _, _ =>
    match a, b with
    | .text x, .text y => some (Ord.compare x y)
    | .boolean x, .boolean y => some (Ord.compare x.toNat y.toNat)
    | .uuid x, .uuid y => some (x.compare y)
    | .timestamp x, .timestamp y => some (x.compare y)
    | _, _ => none

/-- Equality as expressions see it, across numeric types. -/
def equal (a b : Value) : Bool :=
  match a.compare? b with
  | some o => o == .eq
  | none => a == b

end Value

end TypedCql
