import TypedCql.Mapping.Column

/-!
# Mapping definitions

A definition says how an entity type maps to a table. It can be composed of settings or come
from a mapping file; where nothing is said, every member is a column of its own name.
-/

namespace TypedCql

/-- The mapping of an entity type, with the keys already given as names of columns. -/
structure Definition where
  /-- The table; named like the entity type if there is none. -/
  table : Option String := none
  keyspace : Option String := none
  caseSensitive : Bool := false
  compactStorage : Bool := false
  allowFiltering : Bool := false
  /-- Whether only members with options of their own are mapped. -/
  explicitColumns : Bool := false
  partitionKey : List String := []
  clusteringKey : List (String × SortOrder) := []
  /-- The options given for a member. -/
  options : String → Option ColumnOptions := fun _ => none

namespace Definition

/-- The definition of an entity type about which nothing is said. -/
def conventional : Definition := {}

/-- The options a member is mapped with, if it is mapped. -/
def mappedOptions (d : Definition) (member : String) : Option ColumnOptions :=
  match d.options member with
  | some o => if o.ignored then none else some o
  | none => if d.explicitColumns then none else some {}

end Definition

end TypedCql
