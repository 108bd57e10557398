import TypedCql.Error
import TypedCql.Value.Literal

/-!
# Query expressions

An expression describes a query over the rows of one entity: the chain of query operators from
the table on, the conditions, keys and projections they take, and the values computed by the
program that asks the query.
-/

namespace TypedCql

/-- A function of the calling program, which CQL cannot express. Two of them are the same only
if they have the same name and the same identity. -/
structure HostFunction where
  name : String
  identity : Nat
  apply : List Value → Except Error Value

/-- The methods that an expression may call. -/
inductive Method
  | filter | select | take
  | orderBy | thenBy | orderByDescending | thenByDescending
  | groupBy | updateIf | deleteIf | allowFiltering | first | firstOrDefault
  | min | max | average | sum | count
  | contains | containsKey | startsWith | compareTo | equals
  | token | maxTimeUuid | minTimeUuid
  | append | prepend | subtractAssign
  | host (function : HostFunction)

namespace Method

def text : Method → String
  | .filter => "Where"
  | .select => "Select"
  | .take => "Take"
  | .orderBy => "OrderBy"
  | .thenBy => "ThenBy"
  | .orderByDescending => "OrderByDescending"
  | .thenByDescending => "ThenByDescending"
  | .groupBy => "GroupBy"
  | .updateIf => "UpdateIf"
  | .deleteIf => "DeleteIf"
  | .allowFiltering => "AllowFiltering"
  | .first => "First"
  | .firstOrDefault => "FirstOrDefault"
  | .min => "Min"
  | .max => "Max"
  | .average => "Average"
  | .sum => "Sum"
  | .count => "Count"
  | .contains => "Contains"
  | .containsKey => "ContainsKey"
  | .startsWith => "StartsWith"
  | .compareTo => "CompareTo"
  | .equals => "Equals"
  | .token => "Token"
  | .maxTimeUuid => "MaxTimeUuid"
  | .minTimeUuid => "MinTimeUuid"
  | .append => "Append"
  | .prepend => "Prepend"
  | .subtractAssign => "SubtractAssign"
  | .host f => f.name

/-- Every method but those of the calling program. -/
def all : List Method :=
  [.filter, .select, .take, .orderBy, .thenBy, .orderByDescending, .thenByDescending, .groupBy,
    .updateIf, .deleteIf, .allowFiltering, .first, .firstOrDefault, .min, .max, .average, .sum,
    .count, .contains, .containsKey, .startsWith, .compareTo, .equals, .token, .maxTimeUuid,
    .minTimeUuid, .append, .prepend, .subtractAssign]

/-- The method of that text. -/
def ofText? (text : String) : Option Method := all.find? fun m => m.text == text

/-- The CQL function of an aggregate. -/
def aggregate? : Method → Option String
  | .min => some "MIN"
  | .max => some "MAX"
  | .average => some "AVG"
  | .sum => some "SUM"
  | .count => some "COUNT"
  | _ => none

def beq : Method → Method → Bool
  | .host f, .host g => f.name == g.name && f.identity == g.identity
  | .host _, _ | _, .host _ => false
  | a, b => a.text == b.text

instance : BEq Method := ⟨beq⟩

end Method

inductive Expr
  /-- The table that a chain of query operators starts from. -/
  | root
  /-- The row of the enclosing lambda. -/
  | parameter
  /-- The key of a grouping. -/
  | groupKey
  | member (target : Expr) (name : String)
  | constant (value : Value)
  | binary (op : BinaryOp) (left right : Expr)
  | unary (op : UnaryOp) (operand : Expr)
  /-- A call; the receiver of a method is its first argument. -/
  | call (method : Method) (arguments : List Expr)
  | lambda (body : Expr)
  /-- A projection to named parts. -/
  | record (bindings : List (String × Expr))
  /-- A new entity with some of its members set. -/
  | entity (bindings : List (String × Expr))

namespace Expr

instance : Inhabited Expr := ⟨.root⟩

/-- A member of the row. -/
abbrev column (name : String) : Expr := .member .parameter name

/-! ## Text -/

mutual

/-- The expression in diagnostics. Conversions do not show. -/
def text : Expr → String
  | .root => "table"
  | .parameter => "x"
  | .groupKey => "g.Key"
  | .member target name => text target ++ "." ++ name
  | .constant v => v.literal
  | .binary op l r => "(" ++ text l ++ " " ++ op.text ++ " " ++ text r ++ ")"
  | .unary .not e => "!" ++ text e
  | .unary .negate e => "-" ++ text e
  | .unary .plus e => "+" ++ text e
  | .unary .convert e => text e
  | .call method args => method.text ++ "(" ++ ", ".intercalate (texts args) ++ ")"
  | .lambda body => "x => " ++ text body
  | .record bs => "new \x7b " ++ ", ".intercalate (bindingTexts bs) ++ " \x7d"
  | .entity bs => "new T \x7b " ++ ", ".intercalate (bindingTexts bs) ++ " \x7d"

def texts : List Expr → List String
  | [] => []
  | e :: rest => text e :: texts rest

def bindingTexts : List (String × Expr) → List String
  | [] => []
  | (name, e) :: rest => (name ++ " = " ++ text e) :: bindingTexts rest

end

/-! ## Shape -/

mutual

/-- Whether the row or the key of its group occurs anywhere. -/
def usesRow : Expr → Bool
  | .parameter | .groupKey => true
  | .root | .constant _ => false
  | .member target _ => usesRow target
  | .binary _ l r => usesRow l || usesRow r
  | .unary _ e => usesRow e
  | .call _ args => anyUsesRow args
  | .lambda body => usesRow body
  | .record bs | .entity bs => anyBindingUsesRow bs

def anyUsesRow : List Expr → Bool
  | [] => false
  | e :: rest => usesRow e || anyUsesRow rest

def anyBindingUsesRow : List (String × Expr) → Bool
  | [] => false
  | (_, e) :: rest => usesRow e || anyBindingUsesRow rest

end

/-- The name in a member access on the row itself. -/
def rowMember? : Expr → Option String
  | .member .parameter name => some name
  | _ => none

/-- The expression without the conversions around it. -/
def withoutConvert : Expr → Expr
  | .unary .convert e => withoutConvert e
  | e => e

/-- The expression as a lambda. -/
def asLambda : Expr → Expr
  | .lambda body => .lambda body
  | body => .lambda body

/-! ## Equality of structure -/

mutual

def beq : Expr → Expr → Bool
  | .root, .root | .parameter, .parameter | .groupKey, .groupKey => true
  | .member t n, .member t' n' => beq t t' && n == n'
  | .constant v, .constant v' => v == v'
  | .binary op l r, .binary op' l' r' => op == op' && beq l l' && beq r r'
  | .unary op e, .unary op' e' => op == op' && beq e e'
  | .call m as, .call m' as' => m == m' && beqArguments as as'
  | .lambda e, .lambda e' => beq e e'
  | .record bs, .record bs' => beqBindings bs bs'
  | .entity bs, .entity bs' => beqBindings bs bs'
  | _, _ => false

def beqArguments : List Expr → List Expr → Bool
  | [], [] => true
  | e :: es, e' :: es' => beq e e' && beqArguments es es'
  | _, _ => false

def beqBindings : List (String × Expr) → List (String × Expr) → Bool
  | [], [] => true
  | (n, e) :: bs, (n', e') :: bs' => n == n' && beq e e' && beqBindings bs bs'
  | _, _ => false

end

instance : BEq Expr := ⟨beq⟩

end Expr

end TypedCql
