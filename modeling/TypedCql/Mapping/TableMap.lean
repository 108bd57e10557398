import TypedCql.Mapping.Definition

/-!
# Mappings composed of settings

A table map collects settings one after the other. Options of one member accumulate, over any
number of settings; every other setting replaces the one before it. Keys name members.
-/

namespace TypedCql

/-- One choice about the column of a member. -/
inductive ColumnSetting
  | name (column : String)
  | type (type : ColumnType)
  | ignored
  | counter
  | static
  | frozen
  | frozenKey
  | frozenValue
  | indexed

/-- The options with one more choice made. -/
def ColumnOptions.set (o : ColumnOptions) : ColumnSetting → ColumnOptions
  | .name column => { o with name := some column }
  | .type type => { o with type := some type }
  | .ignored => { o with ignored := true }
  | .counter => { o with counter := true }
  | .static => { o with static := true }
  | .frozen => { o with frozen := true }
  | .frozenKey => { o with frozenKey := true }
  | .frozenValue => { o with frozenValue := true }
  | .indexed => { o with indexed := true }

/-- One choice about a table. -/
inductive TableSetting
  | table (name : String)
  | keyspace (name : String)
  | caseSensitive
  | compactStorage
  | allowFiltering
  | explicitColumns
  | partitionKey (members : List String)
  | clusteringKey (members : List (String × SortOrder))
  | column (member : String) (settings : List ColumnSetting)

structure TableMap where
  table : Option String := none
  keyspace : Option String := none
  caseSensitive : Bool := false
  compactStorage : Bool := false
  allowFiltering : Bool := false
  explicitColumns : Bool := false
  /-- Members, in the order of the key. -/
  partitionKey : List String := []
  clusteringKey : List (String × SortOrder) := []
  /-- The options of each member that has some. -/
  columns : String → Option ColumnOptions := fun _ => none

namespace TableMap

/-- The map with one more choice made. -/
def set (m : TableMap) : TableSetting → TableMap
  | .table name => { m with table := some name }
  | .keyspace name => { m with keyspace := some name }
  | .caseSensitive => { m with caseSensitive := true }
  | .compactStorage => { m with compactStorage := true }
  | .allowFiltering => { m with allowFiltering := true }
  | .explicitColumns => { m with explicitColumns := true }
  | .partitionKey members => { m with partitionKey := members }
  | .clusteringKey members => { m with clusteringKey := members }
  | .column member settings =>
    let options := settings.foldl ColumnOptions.set ((m.columns member).getD {})
    { m with columns := fun name => if name = member then some options else m.columns name }

def ofSettings (settings : List TableSetting) : TableMap := settings.foldl set {}

/-- The column that a member is to have. -/
def columnName (m : TableMap) (member : String) : String :=
  ((m.columns member).bind ColumnOptions.name).getD member

def toDefinition (m : TableMap) : Definition where
  table := m.table
  keyspace := m.keyspace
  caseSensitive := m.caseSensitive
  compactStorage := m.compactStorage
  allowFiltering := m.allowFiltering
  explicitColumns := m.explicitColumns
  partitionKey := m.partitionKey.map m.columnName
  clusteringKey := m.clusteringKey.map fun (member, order) => (m.columnName member, order)
  options := m.columns

end TableMap

end TypedCql
