import TypedCql.Codec.MappingFile
import TypedCql.Proofs.StatementReading

/-!
# Mapping files read back from their documents

A mapping file holds no values, and its documents are all equally deep. It comes back with every
entry, what an entry leaves open included, as long as the types of its columns come back from their
text (`CanonicalTypes`).
-/

namespace TypedCql

namespace Codec.Document

@[simp] theorem ofJson_ofText (s : String) : ofJson (.ofText s) = .text s := by
  simp [Json.ofText, ofJson]

theorem ofEntries?_fields (fields : List (String × Json)) :
    ofEntries? (fields.map fun (key, value) => (Json.spell key, value)) =
      some (fields.map fun (key, value) => (key, ofJson value)) := by
  induction fields with
  | nil => rfl
  | cons field rest ih => simp [ofEntries?, ih]

theorem ofItems_eq_map (items : List Json) : ofItems items = items.map ofJson := by
  induction items with
  | nil => rfl
  | cons item rest ih => rw [ofItems, ih, List.map_cons]

theorem record?_ofFields (style : Style) {specs : List FieldSpec}
    (hnames : (specs.map (·.name)).Nodup) {fields : List (String × Json)}
    (h : fields.map Prod.fst = specs.map (·.name)) :
    (ofJson (.ofFields fields)).record? style specs =
      some (fields.map fun field => some (ofJson field.2)) := by
  have hentries : (fields.map fun (key, value) => (key, ofJson value)).map Prod.fst =
      specs.map (·.name) := by
    rw [← h, List.map_map]
    rfl
  simp only [Json.ofFields, ofJson, ofEntries?_fields, Option.elim_some, record?,
    namedFields_of_names hnames hentries, List.map_map]
  rfl

theorem listOf?_array {read : Document → Option α} {write : α → Json} {xs : List α}
    (h : ∀ x ∈ xs, read (ofJson (write x)) = some x) :
    listOf? read (ofJson (.array (xs.map write))) = some xs := by
  rw [ofJson, ofItems_eq_map, listOf?, List.map_map]
  exact Json.mapM_written h

theorem texts?_array (texts : List String) :
    texts? (ofJson (.array (texts.map .ofText))) = some texts := by
  have htext : ∀ s ∈ texts, text? (ofJson (.ofText s)) = some s := by
    intro s _
    rw [ofJson_ofText, text?]
  exact listOf?_array htext

/-- What is absent is written as null, and what is there as something else. -/
theorem optional?_elim {read : Document → Option α} {write : α → Json} {x : Option α}
    (habsent : read .absent = none) (h : ∀ a ∈ x, read (ofJson (write a)) = some a) :
    optional? read (some (ofJson (x.elim .null write))) = some x := by
  cases x with
  | none => simp [ofJson, optional?]
  | some a =>
      have hread := h a rfl
      rw [Option.elim_some]
      generalize ofJson (write a) = d at hread ⊢
      cases d with
      | absent =>
          rw [habsent] at hread
          exact nomatch hread
      | _ => rw [optional?, hread, Option.map_some]; simp

theorem optional?_optionalText (s : Option String) :
    optional? text? (some (ofJson (MappingFile.optionalText s))) = some s :=
  optional?_elim rfl fun s _ => by rw [ofJson_ofText, text?]

theorem flag?_ofJson (b : Bool) : flag? (ofJson (.bool b)) = some b := by
  rw [ofJson, flag?]

theorem sortOrder?_toJson (style : Style) (order : SortOrder) :
    sortOrder? style (ofJson order.toJson) = some order := by
  cases order with
  | ascending => simp [SortOrder.toJson, sortOrder?, sortOrderOf?]
  | descending => simp [SortOrder.toJson, sortOrder?, sortOrderOf?]

theorem columnType?_toJson {t : ColumnType} (h : ColumnType.ofText t.text = .ok t) :
    columnType? (ofJson t.toJson) = some t := by
  simp [ColumnType.toJson, columnType?, text?, h]

end Codec.Document

namespace MappingFile

open Codec.Document

/-- The types of the columns read back from their text. -/
def CanonicalTypes (f : MappingFile) : Prop :=
  ∀ table ∈ f.tables, ∀ column ∈ table.columns, ∀ type ∈ column.type,
    ColumnType.ofText type.text = .ok type

theorem clusteringEntryOf?_toJson (style : Codec.Style) (k : ClusteringEntry) :
    clusteringEntryOf? style (ofJson (clusteringToJson k)) = some k := by
  rw [clusteringEntryOf?, clusteringToJson, record?_ofFields style (by decide) rfl]
  simp only [Option.bind_eq_bind, Option.bind_some, List.map_cons, List.map_nil, ofJson_ofText,
    text?, defaulted?, sortOrder?_toJson]
  rfl

theorem columnEntryOf?_toJson (style : Codec.Style) {c : ColumnEntry}
    (h : ∀ type ∈ c.type, ColumnType.ofText type.text = .ok type) :
    columnEntryOf? style (ofJson (columnToJson c)) = some c := by
  have htype : optional? columnType? (some (ofJson (c.type.elim .null ColumnType.toJson))) =
      some c.type :=
    optional?_elim rfl fun type htype => columnType?_toJson (h type htype)
  rw [columnEntryOf?, columnToJson, record?_ofFields style (by decide) rfl]
  simp only [Option.bind_eq_bind, Option.bind_some, List.map_cons, List.map_nil, ofJson_ofText,
    text?, optional?_optionalText, htype, defaulted?, flag?_ofJson]
  rfl

theorem tableEntryOf?_toJson (style : Codec.Style) {t : TableEntry}
    (h : ∀ column ∈ t.columns, ∀ type ∈ column.type, ColumnType.ofText type.text = .ok type) :
    tableEntryOf? style (ofJson (tableToJson t)) = some t := by
  have hcolumns := listOf?_array fun column hcolumn => columnEntryOf?_toJson style (h column hcolumn)
  have hkeys := listOf?_array fun key (_ : key ∈ t.clusteringKey) =>
    clusteringEntryOf?_toJson style key
  rw [tableEntryOf?, tableToJson, record?_ofFields style (by decide) rfl]
  simp only [Option.bind_eq_bind, Option.bind_some, List.map_cons, List.map_nil, ofJson_ofText,
    text?, optional?_optionalText, defaulted?, flag?_ofJson, texts?_array, hkeys, hcolumns]
  rfl

/-- A mapping file comes back with its tables. -/
theorem ofJson?_toJson {f : MappingFile} (h : f.CanonicalTypes) : ofJson? f.toJson = some f := by
  have htables := listOf?_array fun table htable =>
    tableEntryOf?_toJson Json.documentStyle (h table htable)
  rw [ofJson?, mappingFile?, toJson, record?_ofFields Json.documentStyle (by decide) rfl]
  simp only [Option.bind_eq_bind, Option.bind_some, List.map_cons, List.map_nil, defaulted?, htables]
  rfl

theorem optionalText_spelt (s : Option String) : (optionalText s).Spelt := by
  cases s with
  | none => trivial
  | some s => exact Json.ofText_spelt s

theorem columnToJson_spelt (c : ColumnEntry) : (columnToJson c).Spelt := by
  have htype : (c.type.elim .null ColumnType.toJson).Spelt := by
    cases c.type with
    | none => trivial
    | some type => exact Json.ofText_spelt _
  apply Json.ofFields_spelt
  simp [Json.ofText_spelt, optionalText_spelt, htype, Json.Spelt]

theorem clusteringToJson_spelt (k : ClusteringEntry) : (clusteringToJson k).Spelt := by
  have horder : k.order.toJson.Spelt := by
    cases k.order with
    | ascending => exact Json.ofText_spelt _
    | descending => exact Json.ofText_spelt _
  apply Json.ofFields_spelt
  simp [Json.ofText_spelt, horder]

theorem tableToJson_spelt (t : TableEntry) : (tableToJson t).Spelt := by
  have hpartition : Json.ItemsSpelt (t.partitionKey.map .ofText) :=
    Json.itemsSpelt_map fun member _ => Json.ofText_spelt member
  have hclustering : Json.ItemsSpelt (t.clusteringKey.map clusteringToJson) :=
    Json.itemsSpelt_map fun key _ => clusteringToJson_spelt key
  have hcolumns : Json.ItemsSpelt (t.columns.map columnToJson) :=
    Json.itemsSpelt_map fun column _ => columnToJson_spelt column
  apply Json.ofFields_spelt
  simp [Json.ofText_spelt, optionalText_spelt, Json.Spelt, hpartition, hclustering, hcolumns]

theorem toJson_spelt (f : MappingFile) : f.toJson.Spelt := by
  have htables : Json.ItemsSpelt (f.tables.map tableToJson) :=
    Json.itemsSpelt_map fun table _ => tableToJson_spelt table
  apply Json.ofFields_spelt
  simpa [Json.Spelt] using htables

end MappingFile

end TypedCql
