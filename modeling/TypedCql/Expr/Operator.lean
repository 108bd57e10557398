/-!
# Operators of query expressions

The binary and unary operators, their text in diagnostics, and what of them CQL can say.
-/

namespace TypedCql

inductive BinaryOp
  | eq | ne | gt | gte | lt | lte
  /-- Conjunction that evaluates both sides. -/
  | and
  | andAlso
  | or
  | orElse
  | add | sub | mul | div | rem
  deriving Repr, DecidableEq

namespace BinaryOp

def text : BinaryOp → String
  | .eq => "=="
  | .ne => "!="
  | .gt => ">"
  | .gte => ">="
  | .lt => "<"
  | .lte => "<="
  | .and => "&"
  | .andAlso => "&&"
  | .or => "|"
  | .orElse => "||"
  | .add => "+"
  | .sub => "-"
  | .mul => "*"
  | .div => "/"
  | .rem => "%"

def all : List BinaryOp :=
  [.eq, .ne, .gt, .gte, .lt, .lte, .and, .andAlso, .or, .orElse, .add, .sub, .mul, .div, .rem]

/-- The operator of that text. -/
def ofText? (text : String) : Option BinaryOp := all.find? fun op => op.text == text

/-- The name of the operator when a tree is shown in full. -/
def name : BinaryOp → String
  | .eq => "Eq"
  | .ne => "Ne"
  | .gt => "Gt"
  | .gte => "Gte"
  | .lt => "Lt"
  | .lte => "Lte"
  | .and => "And"
  | .andAlso => "AndAlso"
  | .or => "Or"
  | .orElse => "OrElse"
  | .add => "Add"
  | .sub => "Sub"
  | .mul => "Mul"
  | .div => "Div"
  | .rem => "Rem"

/-- The CQL text of the operators that a condition can carry. -/
def cql? : BinaryOp → Option String
  | .eq => some "="
  | .ne => some "<>"
  | .gt => some ">"
  | .gte => some ">="
  | .lt => some "<"
  | .lte => some "<="
  | .and | .andAlso => some "AND"
  | _ => none

/-- The comparison that holds with the operands swapped exactly when this one holds. -/
def inverse? : BinaryOp → Option BinaryOp
  | .eq => some .eq
  | .ne => some .ne
  | .gt => some .lt
  | .gte => some .lte
  | .lt => some .gt
  | .lte => some .gte
  | _ => none

def isComparison (op : BinaryOp) : Bool := op.inverse?.isSome

end BinaryOp

inductive UnaryOp
  | not
  | negate
  | plus
  /-- A change of type, such as the one to an optional type; it keeps the value. -/
  | convert
  deriving Repr, DecidableEq

/-- The name of the operator in diagnostics. -/
def UnaryOp.name : UnaryOp → String
  | .not => "Not"
  | .negate => "Negate"
  | .plus => "Plus"
  | .convert => "Convert"

end TypedCql
