import TypedCql.Error

/-!
# Events

What the library reports about its work while it does it. Computations that report events give
them back, in order, beside their outcome; the events before a failure are kept.
-/

namespace TypedCql

inductive EventLevel
  | debug
  | warn
  deriving Repr, DecidableEq

inductive Event
  /-- Key columns that no mapped member has. -/
  | missingKeyColumns (entity : String) (columns : List String)
  | builtMapping (entity table : String) (columns : Nat)
  | cachedMapping (entity : String)
  /-- A projection names a member that is not mapped. -/
  | skippedMember (member entity : String)
  /-- A statement was compiled; `kind` is its verb in lower case. -/
  | compiled (kind : String) (params : Nat) (cql : String)
  | compiledBatch (statements params : Nat)
  | generatedTables (statements : Nat) (entity : String)
  | loadedFile (tables : Nat) (path : String)
  deriving Repr, DecidableEq

namespace Event

def level : Event → EventLevel
  | .missingKeyColumns .. => .warn
  | _ => .debug

def message : Event → String
  | .missingKeyColumns entity columns =>
    entity ++ " names primary key columns that are not mapped: " ++ ", ".intercalate columns
  | .builtMapping entity table columns =>
    "Built mapping for " ++ entity ++ ": table '" ++ table ++ "' with " ++ toString columns
      ++ " columns"
  | .cachedMapping entity => "Cached mapping for " ++ entity
  | .skippedMember member entity =>
    "Skipping unmapped member '" ++ member ++ "' of " ++ entity ++ " in projection"
  | .compiled kind params cql =>
    "Compiled " ++ kind ++ " (" ++ toString params ++ " params): " ++ cql
  | .compiledBatch statements params =>
    "Compiled batch of " ++ toString statements ++ " statements (" ++ toString params
      ++ " params)"
  | .generatedTables statements entity =>
    "Generated " ++ toString statements ++ " DDL statements for " ++ entity
  | .loadedFile tables path =>
    "Loaded " ++ toString tables ++ " table mappings from " ++ path

end Event

/-- An outcome with the events reported on the way to it. -/
structure Traced (α : Type) where
  events : List Event
  outcome : Except Error α

namespace Traced

protected def pure (a : α) : Traced α := ⟨[], .ok a⟩

/-- Nothing happens after a failure. -/
protected def bind (t : Traced α) (f : α → Traced β) : Traced β :=
  match t.outcome with
  | .ok a =>
    let next := f a
    ⟨t.events ++ next.events, next.outcome⟩
  | .error e => ⟨t.events, .error e⟩

instance : Monad Traced where
  pure := Traced.pure
  bind := Traced.bind

def fail (e : Error) : Traced α := ⟨[], .error e⟩

def report (e : Event) : Traced Unit := ⟨[e], .ok ()⟩

/-- An outcome reached without events. -/
def ofOutcome (o : Except Error α) : Traced α := ⟨[], o⟩

end Traced

end TypedCql
