import TypedCql.Codec.Document

/-!
# TOML documents

A document is a table of texts, truth values, lists and tables. Numbers and moments are
recognised, but what they denote is not kept, since no mapping holds one.
-/

namespace TypedCql

inductive Toml
  | text (s : String)
  | flag (b : Bool)
  | number
  | moment
  | list (items : List Toml)
  | table (entries : List (String × Toml))
  deriving Repr

namespace Toml

instance : Inhabited Toml := ⟨.number⟩

open Codec (Document)

mutual

/-- The document of a mapping file. -/
def toDocument : Toml → Document
  | .text s => .text s
  | .flag b => .flag b
  | .number | .moment => .foreign
  | .list items => .list (itemDocuments items)
  | .table entries => .table (entryDocuments entries)

def itemDocuments : List Toml → List Document
  | [] => []
  | item :: rest => toDocument item :: itemDocuments rest

def entryDocuments : List (String × Toml) → List (String × Document)
  | [] => []
  | (key, value) :: rest => (key, toDocument value) :: entryDocuments rest

end

/-- In TOML, values beyond the last field are passed over, and an empty list or table stands
for no contents. -/
def documentStyle : Codec.Style where
  surplus := true
  isUnit := fun
    | .list [] | .table [] => true
    | _ => false

end Toml

end TypedCql
