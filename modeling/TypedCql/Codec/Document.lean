import TypedCql.Codec.Fields
import TypedCql.ColumnType.Parser
import TypedCql.Mapping.File

/-!
# Mapping files as documents

What the formats of mapping files have in common: texts, truth values, lists and tables. The
formats differ in a few rules, which a style collects.
-/

namespace TypedCql.Codec

inductive Document
  /-- A value that is explicitly absent. -/
  | absent
  | flag (b : Bool)
  | text (s : String)
  | list (items : List Document)
  | table (entries : List (String × Document))
  /-- A value that no mapping holds, such as a number. -/
  | foreign

instance : Inhabited Document := ⟨.absent⟩

structure Style where
  /-- Whether a record without names may hold more values than it has fields. -/
  surplus : Bool
  /-- Whether the document can stand for the contents of a case that has none. -/
  isUnit : Document → Bool

namespace Document

def record? (style : Style) (specs : List FieldSpec) : Document → Option (List (Option Document))
  | .table entries => namedFields specs entries
  | .list items => positionalFields style.surplus specs items
  | _ => none

def text? : Document → Option String
  | .text s => some s
  | _ => none

def flag? : Document → Option Bool
  | .flag b => some b
  | _ => none

def texts? : Document → Option (List String)
  | .list items => items.mapM text?
  | _ => none

def listOf? (item : Document → Option α) : Document → Option (List α)
  | .list items => items.mapM item
  | _ => none

/-- A field that may be absent, missing or present. -/
def optional? (read : Document → Option α) : Option Document → Option (Option α)
  | none | some .absent => some none
  | some d => (read d).map some

/-- A field with a value for the case that it is missing. -/
def defaulted? (default : α) (read : Document → Option α) : Option Document → Option α
  | none => some default
  | some d => read d

def columnType? (d : Document) : Option ColumnType := do
  match ColumnType.ofText (← d.text?) with
  | .ok type => return type
  | .error _ => none

def sortOrderOf? : String → Option SortOrder
  | "asc" => some .ascending
  | "desc" => some .descending
  | _ => none

/-- An order is given by its name, alone or as the only key of a table without contents. -/
def sortOrder? (style : Style) : Document → Option SortOrder
  | .text name => sortOrderOf? name
  | .table [(name, content)] => if style.isUnit content then sortOrderOf? name else none
  | _ => none

def clusteringEntryOf? (style : Style) (d : Document) : Option ClusteringEntry := do
  match ← d.record? style [⟨"column", .required⟩, ⟨"order", .defaulted⟩] with
  | [some member, order] => do
    let member ← member.text?
    let order ← defaulted? .ascending (sortOrder? style) order
    return ⟨member, order⟩
  | _ => none

def columnSpecs : List FieldSpec :=
  [⟨"member", .required⟩, ⟨"name", .optional⟩, ⟨"type", .optional⟩, ⟨"counter", .defaulted⟩,
    ⟨"static", .defaulted⟩, ⟨"frozen", .defaulted⟩, ⟨"frozen_key", .defaulted⟩,
    ⟨"frozen_value", .defaulted⟩, ⟨"secondary_index", .defaulted⟩, ⟨"ignore", .defaulted⟩]

def columnEntryOf? (style : Style) (d : Document) : Option ColumnEntry := do
  match ← d.record? style columnSpecs with
  | [some member, name, type, counter, isStatic, frozen, frozenKey, frozenValue, indexed,
      ignored] => do
    let member ← member.text?
    let name ← optional? text? name
    let type ← optional? columnType? type
    let counter ← defaulted? false flag? counter
    let isStatic ← defaulted? false flag? isStatic
    let frozen ← defaulted? false flag? frozen
    let frozenKey ← defaulted? false flag? frozenKey
    let frozenValue ← defaulted? false flag? frozenValue
    let indexed ← defaulted? false flag? indexed
    let ignored ← defaulted? false flag? ignored
    return ⟨member, name, type, counter, isStatic, frozen, frozenKey, frozenValue, indexed,
      ignored⟩
  | _ => none

def tableSpecs : List FieldSpec :=
  [⟨"entity", .required⟩, ⟨"name", .optional⟩, ⟨"keyspace", .optional⟩,
    ⟨"case_sensitive", .defaulted⟩, ⟨"compact_storage", .defaulted⟩,
    ⟨"allow_filtering", .defaulted⟩, ⟨"explicit_columns", .defaulted⟩,
    ⟨"partition_key", .defaulted⟩, ⟨"clustering_key", .defaulted⟩, ⟨"column", .defaulted⟩]

def tableEntryOf? (style : Style) (d : Document) : Option TableEntry := do
  match ← d.record? style tableSpecs with
  | [some entity, name, keyspace, caseSensitive, compactStorage, allowFiltering,
      explicitColumns, partitionKey, clusteringKey, columns] => do
    let entity ← entity.text?
    let name ← optional? text? name
    let keyspace ← optional? text? keyspace
    let caseSensitive ← defaulted? false flag? caseSensitive
    let compactStorage ← defaulted? false flag? compactStorage
    let allowFiltering ← defaulted? false flag? allowFiltering
    let explicitColumns ← defaulted? false flag? explicitColumns
    let partitionKey ← defaulted? [] texts? partitionKey
    let clusteringKey ← defaulted? [] (listOf? (clusteringEntryOf? style)) clusteringKey
    let columns ← defaulted? [] (listOf? (columnEntryOf? style)) columns
    return ⟨entity, name, keyspace, caseSensitive, compactStorage, allowFiltering,
      explicitColumns, partitionKey, clusteringKey, columns⟩
  | _ => none

/-- The mapping file that a document describes. -/
def mappingFile? (style : Style) (d : Document) : Option MappingFile := do
  match ← d.record? style [⟨"table", .defaulted⟩] with
  | [tables] => do
    let tables ← defaulted? [] (listOf? (tableEntryOf? style)) tables
    return ⟨tables⟩
  | _ => none

end Document

end TypedCql.Codec
