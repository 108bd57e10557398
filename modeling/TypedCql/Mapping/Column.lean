import TypedCql.ColumnType.Basic

/-!
# Members and columns

An entity has members; a mapping turns members into columns, under the options given for them.
-/

namespace TypedCql

/-- The order in which a clustering column sorts the rows of a partition. -/
inductive SortOrder
  | ascending
  | descending
  deriving Repr, DecidableEq

def SortOrder.cql : SortOrder → String
  | .ascending => "ASC"
  | .descending => "DESC"

/-- A member of an entity type. -/
structure Member where
  name : String
  type : ColumnType

/-- A type of entities. Two types may have the same name and are still different types. -/
structure EntityType where
  id : Nat
  name : String
  members : List Member

/-- What is chosen for the column of one member. -/
structure ColumnOptions where
  /-- The name of the column; that of the member if there is none. -/
  name : Option String := none
  /-- The type in the database; that of the member if there is none. -/
  type : Option ColumnType := none
  /-- Whether the member is left out of the mapping. -/
  ignored : Bool := false
  counter : Bool := false
  static : Bool := false
  frozen : Bool := false
  frozenKey : Bool := false
  frozenValue : Bool := false
  indexed : Bool := false

/-- A member as a column of the table. -/
structure Column where
  name : String
  /-- The type in the database, which may differ from that of the member. -/
  type : ColumnType
  member : Member
  counter : Bool
  static : Bool
  frozen : Bool
  frozenKey : Bool
  frozenValue : Bool
  indexed : Bool

namespace Column

/-- The column of a member under some options. -/
def ofMember (m : Member) (o : ColumnOptions) : Column where
  name := o.name.getD m.name
  type := o.type.getD m.type
  member := m
  counter := o.counter
  static := o.static
  frozen := o.frozen
  frozenKey := o.frozenKey
  frozenValue := o.frozenValue
  indexed := o.indexed

/-- The type in the definition of the column. A counter has a type of its own, and a column
frozen as a whole needs no freezing of its parts. -/
def definedType (c : Column) : ColumnType :=
  if c.counter then .scalar .counter
  else if c.frozen then c.type.freeze
  else
    let type := if c.frozenKey then c.type.freezeKey else c.type
    if c.frozenValue then type.freezeValue else type

end Column

end TypedCql
