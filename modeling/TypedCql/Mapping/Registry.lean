import TypedCql.Mapping.Basic
import TypedCql.Mapping.File
import TypedCql.Mapping.TableMap

/-!
# Registries

A registry holds the definitions given so far, by the names of entity types, and the mappings
built from them, by the types themselves. A mapping is built when it is first asked for and
kept until its definition is replaced.
-/

namespace TypedCql

/-- A mapping with the number of its building; one number belongs to one building. -/
structure BuiltMapping where
  serial : Nat
  mapping : Mapping

structure Registry where
  definitions : List (String × Definition) := []
  cache : List (Nat × BuiltMapping) := []
  /-- How many mappings were built. -/
  builds : Nat := 0

namespace Registry

def empty : Registry := {}

def definition? (r : Registry) (entity : String) : Option Definition :=
  r.definitions.lookup entity

def isDefined (r : Registry) (entity : String) : Bool := (r.definition? entity).isSome

/-- The definitions with the one of a name added or replaced. -/
def insertDefinition (r : Registry) (entity : String) (d : Definition) : Registry :=
  { r with definitions := (entity, d) :: r.definitions.filter (·.1 != entity) }

/-- Registers the mapping of one entity type, and forgets what was built for that type. -/
def define (r : Registry) (e : EntityType) (m : TableMap) : Registry :=
  let r := r.insertDefinition e.name m.toDefinition
  { r with cache := r.cache.filter (·.1 != e.id) }

/-- Registers one entry of a mapping file, and forgets what was built for types of its name. -/
def loadTable (r : Registry) (t : TableEntry) : Registry :=
  let r := r.insertDefinition t.entity t.toDefinition
  { r with cache := r.cache.filter (·.2.mapping.entity.name != t.entity) }

/-- Registers every entry of a mapping file. -/
def load (r : Registry) (f : MappingFile) : Registry := f.tables.foldl loadTable r

/-- The mapping of an entity type, built if it is asked for the first time. A failure is not
remembered. -/
def mapping (r : Registry) (e : EntityType) : Traced BuiltMapping × Registry :=
  match r.cache.lookup e.id with
  | some built => (pure built, r)
  | none =>
    let attempt := Mapping.build e ((r.definition? e.name).getD .conventional)
    match attempt.outcome with
    | .error error => (⟨attempt.events, .error error⟩, r)
    | .ok m =>
      let built : BuiltMapping := ⟨r.builds, m⟩
      (⟨attempt.events ++ [.cachedMapping e.name], .ok built⟩,
        { r with cache := (e.id, built) :: r.cache, builds := r.builds + 1 })

/-- The registry in diagnostics, which only tell its size. -/
def debug (r : Registry) : String :=
  "MappingConfiguration \x7b definitions: " ++ toString r.definitions.length ++ ", cached: "
    ++ toString r.cache.length ++ " \x7d"

end Registry

end TypedCql
