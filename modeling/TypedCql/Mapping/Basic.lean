import TypedCql.Cql.Identifier
import TypedCql.Mapping.Definition
import TypedCql.Traced

/-!
# Mappings

A mapping is what a definition comes to for the members of an entity type: the table with its
columns and keys. It does not change once it is built.
-/

namespace TypedCql

structure Mapping where
  entity : EntityType
  table : String
  /-- The keyspace; the table handle looks for one if there is none. -/
  keyspace : Option String
  columns : List Column
  caseSensitive : Bool
  compactStorage : Bool
  allowFiltering : Bool
  partitionKey : List Column
  clusteringKey : List (Column × SortOrder)
  /-- Names of key columns that no mapped member has, partition key first. -/
  missingKeyColumns : List String

namespace Mapping

/-- The column of a member. -/
def column? (m : Mapping) (member : String) : Option Column :=
  m.columns.find? fun c => c.member.name == member

/-- Whether the column belongs to the partition key or the clustering key. -/
def isKey (m : Mapping) (c : Column) : Bool :=
  m.partitionKey.any (·.name == c.name) || m.clusteringKey.any (·.1.name == c.name)

def isCounter (m : Mapping) (member : String) : Bool :=
  (m.column? member).any Column.counter

/-- A name of the table's as it appears in statements. -/
def identifier (m : Mapping) (name : String) : Identifier := ⟨name, m.caseSensitive⟩

/-- The columns of the mapped members, in the order of the members, after the ones already
found. Two members cannot share a column. -/
def columnsFrom (entity : String) (d : Definition) :
    List Column → List Member → Except Error (List Column)
  | done, [] => .ok done
  | done, m :: rest =>
    match d.mappedOptions m.name with
    | none => columnsFrom entity d done rest
    | some options =>
      let c := Column.ofMember m options
      if done.any (·.name == c.name) then .error (.mapping (.duplicateColumn c.name entity))
      else columnsFrom entity d (done ++ [c]) rest

/-- The column of a name. -/
def named? (columns : List Column) (name : String) : Option Column :=
  columns.find? fun c => c.name == name

/-- The names that belong to no column. -/
def missing (columns : List Column) (names : List String) : List String :=
  names.filter fun name => (named? columns name).isNone

/-- The mapping of an entity type by a definition. Missing key columns are kept and reported,
since only the creation of the table needs them. -/
def build (e : EntityType) (d : Definition) : Traced Mapping := do
  let columns ← .ofOutcome (columnsFrom e.name d [] e.members)
  let missing := missing columns d.partitionKey ++ missing columns (d.clusteringKey.map Prod.fst)
  unless missing.isEmpty do
    .report (.missingKeyColumns e.name missing)
  let m : Mapping :=
    { entity := e
      table := d.table.getD e.name
      keyspace := d.keyspace
      columns := columns
      caseSensitive := d.caseSensitive
      compactStorage := d.compactStorage
      allowFiltering := d.allowFiltering
      partitionKey := d.partitionKey.filterMap (named? columns)
      clusteringKey := d.clusteringKey.filterMap fun (name, order) =>
        (named? columns name).map fun c => (c, order)
      missingKeyColumns := missing }
  .report (.builtMapping e.name m.table m.columns.length)
  return m

end Mapping

end TypedCql
