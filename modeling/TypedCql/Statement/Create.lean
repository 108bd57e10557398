import TypedCql.Mapping.Basic

/-!
# CREATE statements

A table is created with its columns and keys, and then an index for every indexed column.
-/

namespace TypedCql

namespace Mapping

/-- Keys hold neither counters nor static columns, and counters have one type. -/
def checkColumn (m : Mapping) (c : Column) : Except Error Unit := do
  if c.counter then
    if !c.type.isCounterCompatible then
      throw (.type (.counterType c.name c.type))
    if m.isKey c then
      throw (.mapping (.counterInKey c.name))
  if c.static && m.isKey c then
    throw (.mapping (.staticInKey c.name))

/-- Whether a table can be created at all. -/
def checkTable (m : Mapping) : Except Error Unit := do
  if !m.missingKeyColumns.isEmpty then
    throw (.mapping (.missingKeyColumns m.entity.name m.missingKeyColumns))
  if m.partitionKey.isEmpty then
    throw (.mapping (.noPartitionKey m.entity.name))
  m.columns.forM m.checkColumn

/-- The name of a column as it appears in statements. -/
def columnText (m : Mapping) (c : Column) : String := (m.identifier c.name).text

def columnDefinition (m : Mapping) (c : Column) : String :=
  m.columnText c ++ " " ++ c.definedType.text ++ if c.static then " static" else ""

/-- The primary key. Several columns of the partition key stand between brackets of their
own. -/
def keyDefinition (m : Mapping) : String :=
  let partition := ", ".intercalate (m.partitionKey.map m.columnText)
  let partition := if m.partitionKey.length > 1 then "(" ++ partition ++ ")" else partition
  "PRIMARY KEY ("
    ++ ", ".intercalate (partition :: m.clusteringKey.map fun (c, _) => m.columnText c) ++ ")"

/-- The properties of the table after its columns. -/
def tableProperties (m : Mapping) : List String :=
  (if m.clusteringKey.isEmpty then []
    else
      ["CLUSTERING ORDER BY ("
        ++ ", ".intercalate (m.clusteringKey.map fun (c, order) =>
            m.columnText c ++ " " ++ order.cql) ++ ")"])
    ++ if m.compactStorage then ["COMPACT STORAGE"] else []

def existenceGuard (ifNotExists : Bool) : String := if ifNotExists then "IF NOT EXISTS " else ""

def tableStatement (m : Mapping) (qualified : String) (ifNotExists : Bool) : String :=
  "CREATE TABLE " ++ existenceGuard ifNotExists ++ qualified ++ " ("
    ++ ", ".intercalate (m.columns.map m.columnDefinition ++ [m.keyDefinition]) ++ ")"
    ++ if m.tableProperties.isEmpty then ""
       else " WITH " ++ " AND ".intercalate m.tableProperties

def indexStatement (m : Mapping) (qualified : String) (ifNotExists : Bool) (c : Column) :
    String :=
  "CREATE INDEX " ++ existenceGuard ifNotExists ++ "ON " ++ qualified ++ " (" ++ m.columnText c
    ++ ")"

/-- The statements that create a table and its indexes. -/
def create (m : Mapping) (table : String) (keyspace : Option String) (ifNotExists : Bool) :
    Traced (List String) := do
  .ofOutcome m.checkTable
  let qualified := Identifier.qualified keyspace table m.caseSensitive
  let statements :=
    m.tableStatement qualified ifNotExists
      :: (m.columns.filter Column.indexed).map (m.indexStatement qualified ifNotExists)
  .report (.generatedTables statements.length m.entity.name)
  return statements

end Mapping

end TypedCql
