import TypedCql.Error
import TypedCql.Mapping.Definition

/-!
# Mapping files

A mapping file has an entry for each table, and in it one for each column it says something
about. Keys name members.
-/

namespace TypedCql

structure ColumnEntry where
  member : String
  name : Option String := none
  type : Option ColumnType := none
  counter : Bool := false
  static : Bool := false
  frozen : Bool := false
  frozenKey : Bool := false
  frozenValue : Bool := false
  indexed : Bool := false
  ignored : Bool := false

structure ClusteringEntry where
  member : String
  order : SortOrder := .ascending

structure TableEntry where
  /-- The name of the mapped entity type. -/
  entity : String
  name : Option String := none
  keyspace : Option String := none
  caseSensitive : Bool := false
  compactStorage : Bool := false
  allowFiltering : Bool := false
  explicitColumns : Bool := false
  partitionKey : List String := []
  clusteringKey : List ClusteringEntry := []
  columns : List ColumnEntry := []

structure MappingFile where
  tables : List TableEntry

def ColumnEntry.options (c : ColumnEntry) : ColumnOptions where
  name := c.name
  type := c.type
  ignored := c.ignored
  counter := c.counter
  static := c.static
  frozen := c.frozen
  frozenKey := c.frozenKey
  frozenValue := c.frozenValue
  indexed := c.indexed

namespace TableEntry

/-- The entry of a member; the first one, if there are several. -/
def column? (t : TableEntry) (member : String) : Option ColumnEntry :=
  t.columns.find? fun c => c.member == member

/-- The column that a member is to have. -/
def columnName (t : TableEntry) (member : String) : String :=
  ((t.column? member).bind ColumnEntry.name).getD member

def toDefinition (t : TableEntry) : Definition where
  table := t.name
  keyspace := t.keyspace
  caseSensitive := t.caseSensitive
  compactStorage := t.compactStorage
  allowFiltering := t.allowFiltering
  explicitColumns := t.explicitColumns
  partitionKey := t.partitionKey.map t.columnName
  clusteringKey := t.clusteringKey.map fun k => (t.columnName k.member, k.order)
  options := fun member => (t.column? member).map ColumnEntry.options

/-- The members with an entry, in order. -/
def members (t : TableEntry) : List String := t.columns.map ColumnEntry.member

end TableEntry

/-- The first name that occurs a second time. -/
def firstRepeated? : List String → List String → Option String
  | _, [] => none
  | seen, name :: rest =>
    if seen.contains name then some name else firstRepeated? (name :: seen) rest

namespace MappingFile

/-- The entry of an entity type; the first one, if there are several. -/
def table? (f : MappingFile) (entity : String) : Option TableEntry :=
  f.tables.find? fun t => t.entity == entity

/-- Checks the tables from the first one on, given the entity types already met. -/
def validateFrom : List String → List TableEntry → Except Error Unit
  | _, [] => .ok ()
  | seen, t :: rest =>
    if seen.contains t.entity then .error (.config (.duplicateEntity t.entity))
    else
      match firstRepeated? [] t.members with
      | some member => .error (.config (.duplicateMember member t.entity))
      | none => validateFrom (t.entity :: seen) rest

/-- No entity type may have two entries, and no member two in one table. -/
def validate (f : MappingFile) : Except Error Unit := validateFrom [] f.tables

end MappingFile

end TypedCql
