import TypedCql.Query.Chain
import TypedCql.Statement.Change
import TypedCql.Statement.Insert

/-!
# Commands

What a session can be asked to run: selections and counts, and the changes, which may also be
sent together in a batch.
-/

namespace TypedCql

/-- A command that changes data. -/
inductive Change
  | update (query : Query) (options : UpdateOptions)
  | delete (query : Query) (options : DeleteOptions)
  /-- One value for each column of the table. -/
  | insert (table : Table) (values : List Value) (options : InsertOptions)

namespace Change

/-- The insertion of an entity, given by the values of its members; null where it has none. -/
def ofEntity (t : Table) (valueOf : String → Option Value) (o : InsertOptions) : Change :=
  .insert t (t.mapping.columns.map fun c => (valueOf c.member.name).getD .null) o

/-- The verb of the command. -/
def verb : Change → String
  | .update .. => "update"
  | .delete .. => "delete"
  | .insert .. => "insert"

def fragment : Change → Traced Fragment
  | .update q o => do
    let parts ← q.compile .update
    .ofOutcome (parts.update q.table.qualifiedName o)
  | .delete q o => do
    let parts ← q.compile .delete
    .ofOutcome (parts.delete q.table.qualifiedName o)
  | .insert t values o => .ofOutcome (t.mapping.insert t.qualifiedName values o)

def statement (c : Change) : Traced Statement := do
  let s := (← c.fragment).render .placeholder
  .report (.compiled c.verb s.params.length s.cql)
  return s

/-- The command with its values as literals. -/
def inline (c : Change) : Traced String := do
  return (← c.fragment).text .inline

end Change

/-- The number of rows that a query chooses. -/
structure Count where
  query : Query

namespace Count

def fragment (c : Count) : Traced Fragment := do
  let parts ← c.query.compile .count
  return parts.count c.query.table.mapping c.query.table.qualifiedName

def statement (c : Count) : Traced Statement := do
  return (← c.fragment).render .placeholder

/-- The count with its values as literals. -/
def inline (c : Count) : Traced String := do
  return (← c.fragment).text .inline

end Count

/-! ## Any command -/

/-- What a session can be asked to run. -/
inductive Command
  | select (query : Query)
  | count (count : Count)
  | change (change : Change)

namespace Command

def table : Command → Table
  | .select q => q.table
  | .count k => k.query.table
  | .change (.update q _) => q.table
  | .change (.delete q _) => q.table
  | .change (.insert t _ _) => t

/-- What the query of the command compiles to. An insertion has no query and collects nothing. -/
def parts : Command → Outcome Parts
  | .select q => (q.compile .select).outcome
  | .count k => (k.query.compile .count).outcome
  | .change (.update q _) => (q.compile .update).outcome
  | .change (.delete q _) => (q.compile .delete).outcome
  | .change (.insert ..) => .ok {}

def fragment : Command → Traced Fragment
  | .select q => q.fragment
  | .count k => k.fragment
  | .change c => c.fragment

/-- The command with placeholders, the values beside the text. -/
def statement : Command → Traced Statement
  | .select q => q.statement
  | .count k => k.statement
  | .change c => c.statement

/-- The command with its values as literals. -/
def inline : Command → Traced String
  | .select q => q.inline
  | .count k => k.inline
  | .change c => c.inline

end Command

/-! ## Running -/

/-- Runs a statement, if there is one. -/
def Traced.execute (t : Traced Statement) (s : Session σ) (state : σ) : Traced RowSet × σ :=
  match t.outcome with
  | .error e => (⟨t.events, .error e⟩, state)
  | .ok statement =>
    let (outcome, state) := s.execute statement state
    (⟨t.events, outcome⟩, state)

/-- The integer that a count returned. -/
def RowSet.counted (r : RowSet) : Except Error Int :=
  match r.scalar?.bind Value.integer? with
  | some n => .ok n
  | none => .error (.execution .countWithoutInteger)

/-- Runs a count and reads the single value it returns. -/
def Count.countOn (c : Count) (s : Session σ) (state : σ) : Traced Int × σ :=
  let (rows, state) := c.statement.execute s state
  (rows >>= fun r => .ofOutcome r.counted, state)

end TypedCql
