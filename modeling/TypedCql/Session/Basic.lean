import TypedCql.Cql.Statement
import TypedCql.Error

/-!
# Sessions

The library compiles statements; an application supplies the connection that runs them. A
session is a description of such a connection: what running a statement gives, and how it
changes the state of the connection.
-/

namespace TypedCql

/-- Rows that a session returned. -/
structure RowSet where
  columns : List String
  rows : List (List Value)

namespace RowSet

def isEmpty (r : RowSet) : Bool := r.rows.isEmpty

/-- The first value of the first row. -/
def scalar? (r : RowSet) : Option Value := r.rows.head?.bind List.head?

/-- The values of a column in the rows that are long enough to have one. -/
def columnValues? (r : RowSet) (column : String) : Option (List Value) :=
  (r.columns.findIdx? (· == column)).map fun i => r.rows.filterMap (·[i]?)

end RowSet

structure Session (σ : Type) where
  /-- The keyspace of statements about tables whose mapping names none. -/
  keyspace : Option String
  execute : Statement → σ → Except Error RowSet × σ

namespace Session

/-- Runs statements one after the other up to the first that fails. -/
def executeAll (s : Session σ) : List Statement → σ → Except Error Unit × σ
  | [], state => (.ok (), state)
  | statement :: rest, state =>
    match s.execute statement state with
    | (.ok _, state) => s.executeAll rest state
    | (.error e, state) => (.error e, state)

end Session

end TypedCql
