import TypedCql.Timestamp.Basic
import TypedCql.Uuid

/-!
# CQL values

A value is what a statement binds to a placeholder or shows as a literal. Maps and records of
named fields keep their entries in the order they were given; a token holds the components of
a partition key, each of which binds on its own.
-/

namespace TypedCql

inductive Value
  | null
  | boolean (b : Bool)
  | int (n : Int32)
  | bigint (n : Int64)
  | float (x : Float32)
  | double (x : Float)
  | text (s : String)
  | uuid (u : Uuid)
  | timestamp (t : Timestamp)
  | blob (bytes : List UInt8)
  | list (items : List Value)
  | set (items : List Value)
  | map (entries : List (Value × Value))
  | tuple (items : List Value)
  | token (items : List Value)
  | udt (fields : List (String × Value))

namespace Value

instance : Inhabited Value := ⟨.null⟩

def isNull : Value → Bool
  | .null => true
  | _ => false

/-- The name of the value's type in diagnostics. -/
def kind : Value → String
  | .null => "null"
  | .boolean _ => "boolean"
  | .int _ => "int"
  | .bigint _ => "bigint"
  | .float _ => "float"
  | .double _ => "double"
  | .text _ => "text"
  | .uuid _ => "uuid"
  | .timestamp _ => "timestamp"
  | .blob _ => "blob"
  | .list _ => "list"
  | .set _ => "set"
  | .map _ => "map"
  | .tuple _ => "tuple"
  | .token _ => "token"
  | .udt _ => "udt"

/-- The number held by an integer of either width. -/
def integer? : Value → Option Int
  | .int n => some n.toInt
  | .bigint n => some n.toInt
  | _ => none

/-- The elements of a collection or tuple; those of a map are its keys. -/
def elements? : Value → Option (List Value)
  | .list items | .set items | .tuple items => some items
  | .map entries => some (entries.map Prod.fst)
  | _ => none

/-- The first field of that name. -/
def field? (v : Value) (name : String) : Option Value :=
  match v with
  | .udt fields => (fields.find? fun f => f.1 == name).map Prod.snd
  | _ => none

/-! ## Equality of structure

Two values are alike when they are of one type and their parts are alike. Floating-point
numbers compare as numbers, so that one holding `NaN` is unlike itself. -/

mutual

def beq : Value → Value → Bool
  | .null, .null => true
  | .boolean a, .boolean b => a == b
  | .int a, .int b => a == b
  | .bigint a, .bigint b => a == b
  | .float a, .float b => a == b
  | .double a, .double b => a == b
  | .text a, .text b => a == b
  | .uuid a, .uuid b => a == b
  | .timestamp a, .timestamp b => a == b
  | .blob a, .blob b => a == b
  | .list a, .list b => beqItems a b
  | .set a, .set b => beqItems a b
  | .map a, .map b => beqEntries a b
  | .tuple a, .tuple b => beqItems a b
  | .token a, .token b => beqItems a b
  | .udt a, .udt b => beqFields a b
  | _, _ => false

def beqItems : List Value → List Value → Bool
  | [], [] => true
  | a :: as, b :: bs => beq a b && beqItems as bs
  | _, _ => false

def beqEntries : List (Value × Value) → List (Value × Value) → Bool
  | [], [] => true
  | (k, v) :: as, (k', v') :: bs => beq k k' && beq v v' && beqEntries as bs
  | _, _ => false

def beqFields : List (String × Value) → List (String × Value) → Bool
  | [], [] => true
  | (n, v) :: as, (n', v') :: bs => n == n' && beq v v' && beqFields as bs
  | _, _ => false

end

instance : BEq Value := ⟨beq⟩

end Value

end TypedCql
