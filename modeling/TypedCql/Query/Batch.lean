import TypedCql.Query.Command

/-!
# Batches

Several changes sent as one statement. A change is compiled when it joins the batch; one that
does not compile leaves the batch as it was.
-/

namespace TypedCql

inductive BatchKind
  | logged
  | unlogged
  | counter
  deriving Repr, DecidableEq

/-- The words that open a batch of some kind. -/
def BatchKind.opening : BatchKind → String
  | .logged => "BEGIN BATCH"
  | .unlogged => "BEGIN UNLOGGED BATCH"
  | .counter => "BEGIN COUNTER BATCH"

structure Batch where
  kind : BatchKind
  timestamp : Option Timestamp := none
  /-- The changes, as they were compiled when they joined. -/
  entries : List Fragment := []

namespace Batch

def isEmpty (b : Batch) : Bool := b.entries.isEmpty

/-- The batch with a change at its end. Both renderings of the change are compiled, one after
the other. -/
def append (b : Batch) (c : Change) : Traced Batch := do
  let f ← c.fragment
  let s := f.render .placeholder
  .report (.compiled c.verb s.params.length s.cql)
  let _ ← c.inline
  return { b with entries := b.entries ++ [f] }

/-- An attempt to append a change: whether it succeeds, and the batch it leaves. -/
def attempt (b : Batch) (c : Change) : Outcome Unit × Batch :=
  match (b.append c).outcome with
  | .ok longer => (.ok (), longer)
  | .error e => (.error e, b)

/-- The batch after attempts to append changes, from the first to the last. -/
def after (b : Batch) (changes : List Change) : Batch :=
  changes.foldl (fun b c => (b.attempt c).2) b

/-- The text that opens the batch. -/
def opening (b : Batch) : Fragment :=
  .verbatim b.kind.opening ::
    match b.timestamp with
    | some t => [.verbatim " USING TIMESTAMP ", .value (.bigint (Int64.ofInt t.micros))]
    | none => []

/-- The batch as one fragment; an empty one is none. -/
def fragment (b : Batch) : Except Error Fragment :=
  if b.isEmpty then .error (.argument .emptyBatch)
  else
    .ok (b.opening ++ [.verbatim " "]
      ++ b.entries.flatMap (fun f => f ++ [.verbatim "; "]) ++ [.verbatim "APPLY BATCH"])

def statement (b : Batch) : Traced Statement := do
  let s := (← .ofOutcome b.fragment).render .placeholder
  .report (.compiledBatch b.entries.length s.params.length)
  return s

/-- The batch with its values as literals. -/
def inline (b : Batch) : Traced String := do
  return (← .ofOutcome b.fragment).text .inline

end Batch

end TypedCql
