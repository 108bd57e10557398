import TypedCql.Codec.Document
import TypedCql.Json.Basic

/-!
# Mapping files as JSON
-/

namespace TypedCql

namespace Codec.Document

mutual

/-- A JSON document as one of a mapping file. What cannot be read as text stays foreign, which
only matters where a mapping looks at it. -/
def ofJson : Json → Document
  | .null => .absent
  | .bool b => .flag b
  | .number _ => .foreign
  | .text s => (Json.unspell? s).elim .foreign .text
  | .array items => .list (ofItems items)
  | .object entries => (ofEntries? entries).elim .foreign .table

def ofItems : List Json → List Document
  | [] => []
  | item :: rest => ofJson item :: ofItems rest

def ofEntries? : List (String × Json) → Option (List (String × Document))
  | [] => some []
  | (key, value) :: rest => do
    let key ← Json.unspell? key
    let entries ← ofEntries? rest
    return (key, ofJson value) :: entries

end

end Codec.Document

/-- In JSON, records without names hold exactly their fields, and null stands for no contents. -/
def Json.documentStyle : Codec.Style where
  surplus := false
  isUnit := fun
    | .absent => true
    | _ => false

namespace ColumnType

def toJson (t : ColumnType) : Json := .ofText t.text

def ofJson? (json : Json) : Option ColumnType := (Codec.Document.ofJson json).columnType?

end ColumnType

namespace SortOrder

def toJson : SortOrder → Json
  | .ascending => .ofText "asc"
  | .descending => .ofText "desc"

def ofJson? (json : Json) : Option SortOrder :=
  (Codec.Document.ofJson json).sortOrder? Json.documentStyle

end SortOrder

namespace MappingFile

/-- A text or null. -/
def optionalText (s : Option String) : Json := s.elim .null .ofText

def columnToJson (c : ColumnEntry) : Json :=
  .ofFields [("member", .ofText c.member), ("name", optionalText c.name),
    ("type", c.type.elim .null ColumnType.toJson), ("counter", .bool c.counter),
    ("static", .bool c.static), ("frozen", .bool c.frozen), ("frozen_key", .bool c.frozenKey),
    ("frozen_value", .bool c.frozenValue), ("secondary_index", .bool c.indexed),
    ("ignore", .bool c.ignored)]

def clusteringToJson (k : ClusteringEntry) : Json :=
  .ofFields [("column", .ofText k.member), ("order", k.order.toJson)]

def tableToJson (t : TableEntry) : Json :=
  .ofFields [("entity", .ofText t.entity), ("name", optionalText t.name),
    ("keyspace", optionalText t.keyspace), ("case_sensitive", .bool t.caseSensitive),
    ("compact_storage", .bool t.compactStorage), ("allow_filtering", .bool t.allowFiltering),
    ("explicit_columns", .bool t.explicitColumns),
    ("partition_key", .array (t.partitionKey.map .ofText)),
    ("clustering_key", .array (t.clusteringKey.map clusteringToJson)),
    ("column", .array (t.columns.map columnToJson))]

def toJson (f : MappingFile) : Json := .ofFields [("table", .array (f.tables.map tableToJson))]

/-- The mapping file that a JSON document describes, without a check for repetitions. -/
def ofJson? (json : Json) : Option MappingFile :=
  (Codec.Document.ofJson json).mappingFile? Json.documentStyle

end MappingFile

end TypedCql
