import TypedCql.Decimal.Layout
import TypedCql.Text.Enclosed
import TypedCql.Value.Basic

/-!
# CQL literals

The text a value has inside a statement. Numbers are written positionally and whole numbers
without a point; instants as milliseconds; text between single quotes.
-/

namespace TypedCql

namespace Value

/-- A literal has no exponent, however large the number, and no point in a whole one. -/
def literalFloats : FloatLayout := ⟨.up, fun _ => true, "", "", "NaN", "Infinity"⟩

/-- Two digits to base sixteen. -/
def byteText (b : UInt8) : String :=
  String.ofList [Nat.digitChar (b.toNat / 16), Nat.digitChar (b.toNat % 16)]

mutual

def literal : Value → String
  | .null => "NULL"
  | .boolean b => if b then "true" else "false"
  | .int n => toString n.toInt
  | .bigint n => toString n.toInt
  | .float x => literalFloats.ofSingle x
  | .double x => literalFloats.ofDouble x
  | .text s => Text.enclosed '\'' s
  | .uuid u => u.text
  | .timestamp t => toString t.millis
  | .blob bytes => "0x" ++ String.join (bytes.map byteText)
  | .list items => "[" ++ ", ".intercalate (itemLiterals items) ++ "]"
  | .set items => "\x7b" ++ ", ".intercalate (itemLiterals items) ++ "\x7d"
  | .map entries => "\x7b" ++ ", ".intercalate (entryLiterals entries) ++ "\x7d"
  | .tuple items => "(" ++ ", ".intercalate (itemLiterals items) ++ ")"
  | .token items => "token(" ++ ", ".intercalate (itemLiterals items) ++ ")"
  | .udt fields => "\x7b" ++ ", ".intercalate (fieldLiterals fields) ++ "\x7d"

def itemLiterals : List Value → List String
  | [] => []
  | v :: rest => literal v :: itemLiterals rest

def entryLiterals : List (Value × Value) → List String
  | [] => []
  | (k, v) :: rest => (literal k ++ ": " ++ literal v) :: entryLiterals rest

def fieldLiterals : List (String × Value) → List String
  | [] => []
  | (name, v) :: rest => (name ++ ": " ++ literal v) :: fieldLiterals rest

end

end Value

end TypedCql
