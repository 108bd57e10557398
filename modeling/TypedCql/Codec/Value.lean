import TypedCql.ColumnType.Parser
import TypedCql.Json.Number
import TypedCql.Timestamp.Text
import TypedCql.Value.Basic

/-!
# Values as JSON

A value is an object whose only key is the name of its type. Identifiers and instants are
texts, bytes are numbers, and maps and named fields are arrays of pairs, so that neither order
nor repetition is lost.
-/

namespace TypedCql

namespace Value

/-! ## Writing -/

/-- A value of a named type. -/
def tagged (type : String) (content : Json) : Json := .ofFields [(type, content)]

mutual

def toJson : Value → Json
  | .null => .ofText "Null"
  | .boolean b => tagged "Boolean" (.bool b)
  | .int n => tagged "Int" (.ofInt n.toInt)
  | .bigint n => tagged "BigInt" (.ofInt n.toInt)
  | .float x => tagged "Float" (.ofSingle x)
  | .double x => tagged "Double" (.ofDouble x)
  | .text s => tagged "Text" (.ofText s)
  | .uuid u => tagged "Uuid" (.ofText u.text)
  | .timestamp t => tagged "Timestamp" (.ofText t.text)
  | .blob bytes => tagged "Blob" (.array (bytes.map fun b => .ofInt b.toNat))
  | .list items => tagged "List" (.array (itemsToJson items))
  | .set items => tagged "Set" (.array (itemsToJson items))
  | .map entries => tagged "Map" (.array (entriesToJson entries))
  | .tuple items => tagged "Tuple" (.array (itemsToJson items))
  | .token items => tagged "Token" (.array (itemsToJson items))
  | .udt fields => tagged "Udt" (.array (fieldsToJson fields))

def itemsToJson : List Value → List Json
  | [] => []
  | v :: rest => toJson v :: itemsToJson rest

def entriesToJson : List (Value × Value) → List Json
  | [] => []
  | (k, v) :: rest => .array [toJson k, toJson v] :: entriesToJson rest

def fieldsToJson : List (String × Value) → List Json
  | [] => []
  | (name, v) :: rest => .array [.ofText name, toJson v] :: fieldsToJson rest

end

/-! ## Reading -/

/-- The depth left inside an array or object. -/
def inside? : Nat → Option Nat
  | depth + 2 => some (depth + 1)
  | _ => none

/-- The depth to which documents may be nested. -/
def depthLimit : Nat := 128

/-- An integer from `low` to `high`. -/
def integerIn? (low high : Int) (spelling : String) : Option Int :=
  match Json.integerOf? spelling with
  | some n => if low ≤ n ∧ n ≤ high then some n else none
  | none => none

def int32? (spelling : String) : Option Int32 :=
  (integerIn? Int32.minValue.toInt Int32.maxValue.toInt spelling).map Int32.ofInt

def int64? (spelling : String) : Option Int64 :=
  (integerIn? Int64.minValue.toInt Int64.maxValue.toInt spelling).map Int64.ofInt

def byte? : Json → Option UInt8
  | .number s => (integerIn? 0 255 s).map fun n => UInt8.ofNat n.toNat
  | _ => none

/-- Reads the values of types that hold no other values. -/
def ofAtom? (type : String) (content : Json) : Option Value :=
  match type, content with
  | "Null", .null => some .null
  | "Boolean", .bool b => some (.boolean b)
  | "Int", .number s => (int32? s).map .int
  | "BigInt", .number s => (int64? s).map .bigint
  | "Float", .number s => (Json.singleOf? s).map .float
  | "Double", .number s => (Json.floatOf? s).map .double
  | "Text", .text s => (Json.unspell? s).map .text
  | "Uuid", .text s => ((Json.unspell? s).bind Uuid.ofText?).map .uuid
  | "Timestamp", .text s => ((Json.unspell? s).bind Timestamp.ofText?).map .timestamp
  | "Blob", .array items => (items.mapM byte?).map .blob
  | _, _ => none

mutual

/-- The value that a document describes, nested at most `depth` deep. -/
def ofJson? : Json → Nat → Option Value
  | .text s, _ => if Json.unspell? s = some "Null" then some .null else none
  | .object [(key, content)], depth => do
    let depth ← inside? depth
    let type ← Json.unspell? key
    ofContent? type content depth
  | _, _ => none

/-- The value of a type that the content describes. -/
def ofContent? : String → Json → Nat → Option Value
  | type, .array items, depth => do
    let depth ← inside? depth
    match type with
    | "List" => (itemsOf? items depth).map .list
    | "Set" => (itemsOf? items depth).map .set
    | "Tuple" => (itemsOf? items depth).map .tuple
    | "Token" => (itemsOf? items depth).map .token
    | "Map" => (entriesOf? items depth).map .map
    | "Udt" => (fieldsOf? items depth).map .udt
    | type => ofAtom? type (.array items)
  | type, content, _ => ofAtom? type content

def itemsOf? : List Json → Nat → Option (List Value)
  | [], _ => some []
  | item :: rest, depth => do
    let v ← ofJson? item depth
    let values ← itemsOf? rest depth
    return v :: values

def entriesOf? : List Json → Nat → Option (List (Value × Value))
  | [], _ => some []
  | .array [key, value] :: rest, depth => do
    let inner ← inside? depth
    let k ← ofJson? key inner
    let v ← ofJson? value inner
    let entries ← entriesOf? rest depth
    return (k, v) :: entries
  | _, _ => none

def fieldsOf? : List Json → Nat → Option (List (String × Value))
  | [], _ => some []
  | .array [.text name, value] :: rest, depth => do
    let inner ← inside? depth
    let name ← Json.unspell? name
    let v ← ofJson? value inner
    let fields ← fieldsOf? rest depth
    return (name, v) :: fields
  | _, _ => none

end

end Value

end TypedCql
