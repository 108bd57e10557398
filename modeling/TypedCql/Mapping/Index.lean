import TypedCql.Mapping.Basic

/-!
# Columns by position

A mapping keeps its columns once, in the order of the members. Members and keys refer to them by
position: the positions of members are looked up by name, where the last entry for a name counts,
and each name that a key lists is searched for once, when the mapping is built.
-/

namespace TypedCql

structure MappingIndex where
  columns : List Column := []
  /-- The positions of the columns of members, the last entry first. -/
  members : List (String × Nat) := []
  partitionKey : List Nat := []
  clusteringKey : List (Nat × SortOrder) := []
  /-- Names of key columns that no mapped member has. -/
  missing : List String := []

namespace MappingIndex

/-- The index with a column after those that it has. -/
def addColumn (x : MappingIndex) (c : Column) : MappingIndex :=
  { x with
    columns := x.columns ++ [c]
    members := (c.member.name, x.columns.length) :: x.members }

/-- The index with the columns of the mapped members. Two members cannot share a column. -/
def addMembers (entity : String) (d : Definition) :
    MappingIndex → List Member → Except Error MappingIndex
  | x, [] => .ok x
  | x, m :: rest =>
    match d.mappedOptions m.name with
    | none => addMembers entity d x rest
    | some options =>
      let c := Column.ofMember m options
      if x.columns.any (·.name == c.name) then .error (.mapping (.duplicateColumn c.name entity))
      else addMembers entity d (x.addColumn c) rest

/-- The position of the column of a name. -/
def position? (x : MappingIndex) (name : String) : Option Nat :=
  x.columns.findIdx? fun c => c.name == name

/-- The index with a name that the partition key lists. -/
def addPartitionName (x : MappingIndex) (name : String) : MappingIndex :=
  match x.position? name with
  | some i => { x with partitionKey := x.partitionKey ++ [i] }
  | none => { x with missing := x.missing ++ [name] }

/-- The index with a name that the clustering key lists. -/
def addClusteringName (x : MappingIndex) (key : String × SortOrder) : MappingIndex :=
  match x.position? key.1 with
  | some i => { x with clusteringKey := x.clusteringKey ++ [(i, key.2)] }
  | none => { x with missing := x.missing ++ [key.1] }

/-- The index with the keys of a definition, the partition key first. -/
def addKeys (d : Definition) (x : MappingIndex) : MappingIndex :=
  d.clusteringKey.foldl addClusteringName (d.partitionKey.foldl addPartitionName x)

/-- The index of an entity type by a definition. -/
def build (e : EntityType) (d : Definition) : Except Error MappingIndex :=
  (addMembers e.name d {} e.members).map (addKeys d)

/-- The column of a member; a position without a column is none. -/
def column? (x : MappingIndex) (member : String) : Option Column :=
  (x.members.lookup member).bind fun i => x.columns[i]?

end MappingIndex

end TypedCql
