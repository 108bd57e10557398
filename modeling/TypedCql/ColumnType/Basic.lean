/-!
# Column types

The types a column may have: the built-in scalars, collections, tuples, frozen types, and
types that users define and refer to by name.
-/

namespace TypedCql

inductive Scalar
  | ascii | bigint | blob | boolean | counter | date | decimal | double | duration | float | inet
  | int | smallint | text | time | timestamp | timeuuid | tinyint | uuid | varchar | varint
  deriving Repr, DecidableEq

namespace Scalar

/-- Every scalar, in alphabetical order of the names. -/
def all : List Scalar :=
  [.ascii, .bigint, .blob, .boolean, .counter, .date, .decimal, .double, .duration, .float, .inet,
    .int, .smallint, .text, .time, .timestamp, .timeuuid, .tinyint, .uuid, .varchar, .varint]

def name : Scalar → String
  | .ascii => "ascii"
  | .bigint => "bigint"
  | .blob => "blob"
  | .boolean => "boolean"
  | .counter => "counter"
  | .date => "date"
  | .decimal => "decimal"
  | .double => "double"
  | .duration => "duration"
  | .float => "float"
  | .inet => "inet"
  | .int => "int"
  | .smallint => "smallint"
  | .text => "text"
  | .time => "time"
  | .timestamp => "timestamp"
  | .timeuuid => "timeuuid"
  | .tinyint => "tinyint"
  | .uuid => "uuid"
  | .varchar => "varchar"
  | .varint => "varint"

/-- The scalar of that lower-case name. -/
def ofName? (name : String) : Option Scalar :=
  all.find? fun s => s.name == name

end Scalar

inductive ColumnType
  | scalar (s : Scalar)
  | list (element : ColumnType)
  | set (element : ColumnType)
  | map (key value : ColumnType)
  | tuple (elements : List ColumnType)
  | frozen (inner : ColumnType)
  | udt (name : String)
  deriving Repr

namespace ColumnType

instance : Inhabited ColumnType := ⟨.udt ""⟩

mutual

def text : ColumnType → String
  | .scalar s => s.name
  | .list e => "list<" ++ text e ++ ">"
  | .set e => "set<" ++ text e ++ ">"
  | .map k v => "map<" ++ text k ++ ", " ++ text v ++ ">"
  | .tuple es => "tuple<" ++ ", ".intercalate (texts es) ++ ">"
  | .frozen t => "frozen<" ++ text t ++ ">"
  | .udt name => name

def texts : List ColumnType → List String
  | [] => []
  | t :: rest => text t :: texts rest

end

/-- The type frozen; a frozen type stays as it is. -/
def freeze : ColumnType → ColumnType
  | .frozen t => .frozen t
  | t => .frozen t

/-- The type behind all its `frozen` wrappers. -/
def unfrozen : ColumnType → ColumnType
  | .frozen t => unfrozen t
  | t => t

def isCollection (t : ColumnType) : Bool :=
  match t.unfrozen with
  | .list _ | .set _ | .map _ _ => true
  | _ => false

def isList (t : ColumnType) : Bool :=
  match t.unfrozen with
  | .list _ => true
  | _ => false

/-- The types that a counter column may be declared with. -/
def isCounterCompatible : ColumnType → Bool
  | .scalar .bigint | .scalar .counter => true
  | _ => false

/-- The type with the key of a map, or the element of a set or list, frozen. -/
def freezeKey : ColumnType → ColumnType
  | .map k v => .map k.freeze v
  | .set e => .set e.freeze
  | .list e => .list e.freeze
  | t => t

/-- The type with the value of a map, or the element of a list, frozen. -/
def freezeValue : ColumnType → ColumnType
  | .map k v => .map k v.freeze
  | .list e => .list e.freeze
  | t => t

end ColumnType

end TypedCql
