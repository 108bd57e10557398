import TypedCql.Decimal.Shortest
import TypedCql.Expr.Basic
import TypedCql.Value.Order

/-!
# Evaluating expressions

An expression without the row has a value that the program can compute before it asks the
query. Evaluation is strict: every part is evaluated, from left to right, and the first failure
is the failure of the whole.
-/

namespace TypedCql

/-- The outcome of a computation that may fail with an error of the library. -/
abbrev Outcome (α : Type) := Except Error α

namespace Value

/-! ## Arithmetic -/

/-- An integer of the narrow or the wide type, if it fits. -/
def ofInteger (wide : Bool) (n : Int) : Outcome Value :=
  if wide then
    if Int64.minValue.toInt ≤ n ∧ n ≤ Int64.maxValue.toInt then .ok (.bigint (Int64.ofInt n))
    else .error (.evaluation .overflow)
  else
    if Int32.minValue.toInt ≤ n ∧ n ≤ Int32.maxValue.toInt then .ok (.int (Int32.ofInt n))
    else .error (.evaluation .overflow)

/-- The exact result on integers; `none` stands for an overflow. Division truncates toward
zero, and the remainder has the sign of the dividend. The remainder of the least wide integer
by `-1` counts as an overflow, since the division belonging to it is one. -/
def exactResult? (op : BinaryOp) (a b : Int) : Option Int :=
  match op with
  | .add => some (a + b)
  | .sub => some (a - b)
  | .mul => some (a * b)
  | .div => some (a.tdiv b)
  | .rem => if a = Int64.minValue.toInt ∧ b = -1 then none else some (a.tmod b)
  | _ => none

def integerArithmetic (op : BinaryOp) (wide : Bool) (a b : Int) : Outcome Value :=
  if (op = .div ∨ op = .rem) ∧ b = 0 then .error (.evaluation .divisionByZero)
  else
    match exactResult? op a b with
    | some n => ofInteger wide n
    | none => .error (.evaluation .overflow)

/-- The remainder of a truncated division, which is exact. Both numbers are multiples of the
smaller of their two units, so the remainder is one of natural numbers. -/
def floatRemainder (x y : Float) : Float :=
  if x.isNaN || y.isNaN || x.isInf || y == 0.0 then 0.0 / 0.0
  else if y.isInf || x == 0.0 then x
  else
    let a := BinaryFormat.double.magnitude x.toBits.toNat
    let b := BinaryFormat.double.magnitude y.toBits.toNat
    let unit := min a.exponent b.exponent
    let dividend := a.mantissa * Nat.pow 2 (a.exponent - unit).toNat
    let divisor := b.mantissa * Nat.pow 2 (b.exponent - unit).toNat
    let remainder := (Float.ofNat (dividend % divisor)).scaleB unit
    if x < 0.0 then -remainder else remainder

def floatArithmetic (op : BinaryOp) (x y : Float) : Float :=
  match op with
  | .add => x + y
  | .sub => x - y
  | .mul => x * y
  | .div => x / y
  | _ => floatRemainder x y

/-- Integers stay integers, the wider type winning; any other pair of numbers is taken as
floating-point numbers. -/
def arithmetic (op : BinaryOp) : Number → Number → Outcome Value
  | .integer a wideA, .integer b wideB => integerArithmetic op (wideA || wideB) a.toInt b.toInt
  | a, b => .ok (.double (floatArithmetic op a.toFloat b.toFloat))

/-! ## Operators -/

def unary (op : UnaryOp) (v : Value) : Outcome Value :=
  match op, v with
  | .convert, v | .plus, v => .ok v
  | .not, .boolean b => .ok (.boolean !b)
  | .negate, .int n => ofInteger false (-n.toInt)
  | .negate, .bigint n => ofInteger true (-n.toInt)
  | .negate, .float x => .ok (.float (-x))
  | .negate, .double x => .ok (.double (-x))
  | op, v => .error (.evaluation (.unaryMismatch op v.kind))

/-- The order of two values that have one. -/
def comparison (a b : Value) : Outcome Ordering :=
  match a.compare? b with
  | some o => .ok o
  | none => .error (.evaluation (.notComparable a.kind b.kind))

/-- An arithmetical operator, which also joins two texts. -/
def calculate (op : BinaryOp) (a b : Value) : Outcome Value :=
  match op, a, b with
  | .add, .text s, .text t => .ok (.text (s ++ t))
  | op, a, b =>
    match a.number?, b.number? with
    | some x, some y => arithmetic op x y
    | _, _ => .error (.evaluation (.binaryMismatch op a.kind b.kind))

/-- A logical operator; both sides must be booleans even where one decides. -/
def logical (op : BinaryOp) (combine : Bool → Bool → Bool) (a b : Value) : Outcome Value :=
  match a, b with
  | .boolean x, .boolean y => .ok (.boolean (combine x y))
  | _, _ => .error (.evaluation (.notBoolean op))

def binary (op : BinaryOp) (a b : Value) : Outcome Value :=
  match op with
  | .add | .sub | .mul | .div | .rem => calculate op a b
  | .and | .andAlso => logical op (· && ·) a b
  | .or | .orElse => logical op (· || ·) a b
  | .eq => .ok (.boolean (a.equal b))
  | .ne => .ok (.boolean !(a.equal b))
  | .gt => do return .boolean ((← comparison a b) == .gt)
  | .gte => do return .boolean ((← comparison a b) != .lt)
  | .lt => do return .boolean ((← comparison a b) == .lt)
  | .lte => do return .boolean ((← comparison a b) != .gt)

/-! ## Methods -/

/-- The place of an order as a number: before, equal, after. -/
def ofOrdering : Ordering → Value
  | .lt => .int (-1)
  | .eq => .int 0
  | .gt => .int 1

def ofCall (method : Method) (args : List Value) : Outcome Value :=
  match method, args with
  | .host f, args => f.apply args
  | .token, args => .ok (.token args)
  | .equals, [a, b] => .ok (.boolean (a.equal b))
  | .compareTo, [a, b] => do return ofOrdering (← comparison a b)
  | .startsWith, [.text s, .text start] => .ok (.boolean (start.toList.isPrefixOf s.toList))
  | .contains, [collection, item] =>
    match collection.elements? with
    | some items => .ok (.boolean (items.any (·.equal item)))
    | none => .error (.evaluation (.notACollection collection.kind))
  | .containsKey, [.map entries, key] =>
    .ok (.boolean (entries.any fun entry => entry.1.equal key))
  | method, args => .error (.evaluation (.notOnHost method.text args.length))

end Value

namespace Expr

mutual

def evaluate : Expr → Outcome Value
  | .constant v => .ok v
  | .parameter => .error (.evaluation (.unboundParameter parameter.text))
  | .groupKey => .error (.evaluation (.unboundParameter groupKey.text))
  | .member target name => do
    let v ← evaluate target
    match v.field? name with
    | some field => return field
    | none => throw (.evaluation (.noSuchMember v.kind name))
  | .binary op l r => do
    let a ← evaluate l
    let b ← evaluate r
    Value.binary op a b
  | .unary op e => do
    let v ← evaluate e
    Value.unary op v
  | .call method args => do
    let values ← evaluateAll args
    Value.ofCall method values
  | .root => .error (.evaluation (.notAValue root.text))
  | .lambda body => .error (.evaluation (.notAValue (lambda body).text))
  | .record bs => .error (.evaluation (.notAValue (record bs).text))
  | .entity bs => .error (.evaluation (.notAValue (entity bs).text))

def evaluateAll : List Expr → Outcome (List Value)
  | [] => .ok []
  | e :: rest => do
    let v ← evaluate e
    let values ← evaluateAll rest
    return v :: values

end

end Expr

end TypedCql
