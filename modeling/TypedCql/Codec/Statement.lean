import TypedCql.Codec.Fields
import TypedCql.Codec.Value
import TypedCql.Session.Basic

/-!
# Statements and rows as JSON
-/

namespace TypedCql

/-- The contents of an array. -/
def Json.items? (depth : Nat) : Json → Option (List Json × Nat)
  | .array items => (Value.inside? depth).map fun depth => (items, depth)
  | _ => none

/-- The text in a document. -/
def Json.string? : Json → Option String
  | .text s => Json.unspell? s
  | _ => none

/-- The fields of a record, named or not, and the depth left inside it. -/
def Json.record? (specs : List Codec.FieldSpec) (depth : Nat) :
    Json → Option (List (Option Json) × Nat)
  | .object entries => do
    let depth ← Value.inside? depth
    let named ← entries.mapM fun (key, value) => (Json.unspell? key).map fun key => (key, value)
    let fields ← Codec.namedFields specs named
    return (fields, depth)
  | .array items => do
    let depth ← Value.inside? depth
    let fields ← Codec.positionalFields false specs items
    return (fields, depth)
  | _ => none

namespace Statement

def toJson (s : Statement) : Json :=
  .ofFields [("cql", .ofText s.cql), ("params", .array (Value.itemsToJson s.params))]

def ofJson? (json : Json) : Option Statement := do
  let (fields, depth) ←
    json.record? [⟨"cql", .required⟩, ⟨"params", .required⟩] Value.depthLimit
  match fields with
  | [some cql, some params] => do
    let cql ← cql.string?
    let (items, depth) ← params.items? depth
    let params ← Value.itemsOf? items depth
    return ⟨cql, params⟩
  | _ => none

end Statement

namespace RowSet

def toJson (r : RowSet) : Json :=
  .ofFields [("columns", .array (r.columns.map .ofText)),
    ("rows", .array (r.rows.map fun row => .array (Value.itemsToJson row)))]

def ofJson? (json : Json) : Option RowSet := do
  let (fields, depth) ←
    json.record? [⟨"columns", .required⟩, ⟨"rows", .required⟩] Value.depthLimit
  match fields with
  | [some columns, some rows] => do
    let (names, _) ← columns.items? depth
    let columns ← names.mapM Json.string?
    let (rows, depth) ← rows.items? depth
    let rows ← rows.mapM fun row => do
      let (items, depth) ← row.items? depth
      Value.itemsOf? items depth
    return ⟨columns, rows⟩
  | _ => none

end RowSet

end TypedCql
