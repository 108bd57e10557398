import TypedCql.Mapping.Registry
import TypedCql.Session.Basic
import TypedCql.Statement.Create
import TypedCql.Text.Quoted

/-!
# Table handles

A handle is a mapping with the name and keyspace to use for it.
-/

namespace TypedCql

structure Table where
  mapping : Mapping
  /-- Used instead of the mapped name. -/
  ownName : Option String := none
  /-- Used instead of the mapped keyspace. -/
  ownKeyspace : Option String := none
  /-- Used when neither the handle nor the mapping names a keyspace. -/
  fallback : Option String := none

namespace Table

/-- The table of an entity type as a registry maps it. -/
def ofRegistry (r : Registry) (e : EntityType) : Traced Table × Registry :=
  let (built, r) := r.mapping e
  (built >>= fun b => pure { mapping := b.mapping }, r)

/-- The table in the keyspace of a session, unless it has one of its own. -/
def forSession (t : Table) (s : Session σ) : Table := { t with fallback := s.keyspace }

def name (t : Table) : String := t.ownName.getD t.mapping.table

def keyspace (t : Table) : Option String :=
  t.ownKeyspace.or (t.mapping.keyspace.or t.fallback)

/-- The table as it appears in statements. -/
def qualifiedName (t : Table) : String :=
  Identifier.qualified t.keyspace t.name t.mapping.caseSensitive

def debug (t : Table) : String :=
  let keyspace := match t.ownKeyspace with
    | some k => "Some(" ++ Text.quoted k ++ ")"
    | none => "None"
  "Table \x7b type: " ++ Text.quoted t.mapping.entity.name ++ ", name: " ++ Text.quoted t.name
    ++ ", keyspace: " ++ keyspace ++ " \x7d"

/-- The statements that create the table and its indexes. -/
def createStatements (t : Table) (ifNotExists : Bool) : Traced (List Statement) := do
  let texts ← t.mapping.create t.name t.keyspace ifNotExists
  return texts.map fun cql => ⟨cql, []⟩

/-- Creates the table and its indexes, one statement at a time. -/
def create (t : Table) (s : Session σ) (ifNotExists : Bool) (state : σ) : Traced Unit × σ :=
  let statements := t.createStatements ifNotExists
  match statements.outcome with
  | .error e => (⟨statements.events, .error e⟩, state)
  | .ok list =>
    let (outcome, state) := s.executeAll list state
    (⟨statements.events, outcome⟩, state)

end Table

end TypedCql
