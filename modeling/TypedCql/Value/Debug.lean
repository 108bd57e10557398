import TypedCql.Decimal.Layout
import TypedCql.Text.Quoted
import TypedCql.Timestamp.Text
import TypedCql.Value.Basic

/-!
# Values as diagnostics show them

The text names the type of every value and part of a value, so that no two values of different
structure look the same.
-/

namespace TypedCql

namespace Value

/-- Diagnostics keep the point of a whole number and use an exponent for magnitudes from
`10 ^ 16` up and below `10 ^ -4`. -/
def debugFloats : FloatLayout := ⟨.up, fun e => -4 ≤ e ∧ e ≤ 15, "", ".0", "NaN", "inf"⟩

/-- Parts between brackets. -/
def bracketed (parts : List String) : String := "[" ++ ", ".intercalate parts ++ "]"

mutual

def debug : Value → String
  | .null => "Null"
  | .boolean b => "Boolean(" ++ (if b then "true" else "false") ++ ")"
  | .int n => "Int(" ++ toString n.toInt ++ ")"
  | .bigint n => "BigInt(" ++ toString n.toInt ++ ")"
  | .float x => "Float(" ++ debugFloats.ofSingle x ++ ")"
  | .double x => "Double(" ++ debugFloats.ofDouble x ++ ")"
  | .text s => "Text(" ++ Text.quoted s ++ ")"
  | .uuid u => "Uuid(" ++ u.text ++ ")"
  | .timestamp t => "Timestamp(" ++ t.text ++ ")"
  | .blob bytes => "Blob(" ++ bracketed (bytes.map fun b => toString b.toNat) ++ ")"
  | .list items => "List(" ++ bracketed (debugItems items) ++ ")"
  | .set items => "Set(" ++ bracketed (debugItems items) ++ ")"
  | .map entries => "Map(" ++ bracketed (debugEntries entries) ++ ")"
  | .tuple items => "Tuple(" ++ bracketed (debugItems items) ++ ")"
  | .token items => "Token(" ++ bracketed (debugItems items) ++ ")"
  | .udt fields => "Udt(" ++ bracketed (debugFields fields) ++ ")"

def debugItems : List Value → List String
  | [] => []
  | v :: rest => debug v :: debugItems rest

def debugEntries : List (Value × Value) → List String
  | [] => []
  | (k, v) :: rest => ("(" ++ debug k ++ ", " ++ debug v ++ ")") :: debugEntries rest

def debugFields : List (String × Value) → List String
  | [] => []
  | (name, v) :: rest => ("(" ++ Text.quoted name ++ ", " ++ debug v ++ ")") :: debugFields rest

end

end Value

end TypedCql
