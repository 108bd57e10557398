import TypedCql.Toml.Basic

/-!
# Tables under construction

A table can be opened by a header, grow by keys of several parts, or come into being because
something inside it was named. What may still be added to it depends on which of these it was,
so that no table is defined twice.
-/

namespace TypedCql

namespace Toml

/-- How a table came into being. -/
inductive Origin
  /-- A header opened it, or it is the document itself. -/
  | opened
  /-- A header named something inside it. -/
  | implied
  /-- A key of several parts named something inside it. -/
  | dotted
  deriving Repr, DecidableEq

inductive Section
  /-- A value; tables written as values are complete. -/
  | value (v : Toml)
  | table (origin : Origin) (entries : List (String × Section))
  /-- Tables under one header, of which the last one grows. -/
  | tables (items : List (List (String × Section)))

namespace Section

instance : Inhabited Section := ⟨.value .number⟩

abbrev Entries := List (String × Section)

/-- The entries with the one of a key replaced, or added at the end. -/
def put (key : String) (s : Section) : Entries → Entries
  | [] => [(key, s)]
  | (k, old) :: rest => if k = key then (key, s) :: rest else (k, old) :: put key s rest

/-- Changes the table that a path leads to; tables on the way come into being. Keys of several
parts do not lead into tables that headers opened. -/
def changeAt (dotted : Bool) (change : Origin → Entries → Option Entries) :
    List String → Origin → Entries → Option Entries
  | [], origin, entries => change origin entries
  | key :: path, _, entries =>
    match entries.lookup key with
    | none => do
      let origin := if dotted then .dotted else .implied
      let inner ← changeAt dotted change path origin []
      return put key (.table origin inner) entries
    | some (.value _) => none
    | some (.tables items) => do
      let inner ← changeAt dotted change path .opened (items.getLast?.getD [])
      return put key (.tables (items.dropLast ++ [inner])) entries
    | some (.table origin inner) =>
      if dotted ∧ origin = .opened then none
      else do
        let inner ← changeAt dotted change path origin inner
        return put key (.table origin inner) entries

/-- Opens the table of a header. It must not have been opened before. -/
def openTable (key : String) (_ : Origin) (entries : Entries) : Option Entries :=
  match entries.lookup key with
  | none => some (put key (.table .opened []) entries)
  | some (.table .implied inner) => some (put key (.table .opened inner) entries)
  | some _ => none

/-- Adds one more table under a header. -/
def addTable (key : String) (_ : Origin) (entries : Entries) : Option Entries :=
  match entries.lookup key with
  | none => some (put key (.tables [[]]) entries)
  | some (.tables items) => some (put key (.tables (items ++ [[]])) entries)
  | some _ => none

/-- Gives a key its value, which it must not have yet. A key of several parts only adds to
tables that such keys brought into being. -/
def setValue (path : List String) (key : String) (v : Toml) (_ : Origin) (entries : Entries) :
    Option Entries :=
  changeAt true (fun origin entries =>
    if (path ≠ [] ∧ origin ≠ .dotted) ∨ (entries.lookup key).isSome then none
    else some (put key (.value v) entries)) path .opened entries

mutual

/-- The finished value. -/
def toToml : Section → Toml
  | .value v => v
  | .table _ entries => .table (entriesToToml entries)
  | .tables items => .list (tablesToToml items)

def entriesToToml : List (String × Section) → List (String × Toml)
  | [] => []
  | (key, s) :: rest => (key, toToml s) :: entriesToToml rest

def tablesToToml : List (List (String × Section)) → List Toml
  | [] => []
  | entries :: rest => .table (entriesToToml entries) :: tablesToToml rest

end

end Section

end Toml

end TypedCql
