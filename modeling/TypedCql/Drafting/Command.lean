import TypedCql.Drafting.Compile
import TypedCql.Drafting.Statement
import TypedCql.Query.Batch

/-!
# Commands and batches on drafts

A command is compiled once for each way of showing its values, and a batch keeps what both runs left
for each of its changes: the statement with its parameters, and the text with literals.
-/

namespace TypedCql

/-- What a query comes to in a statement of some kind. -/
def Query.draft (q : Query) (mode : BindMode) (kind : StatementKind) : Traced DraftParts :=
  Context.draft ⟨q.table.mapping, kind⟩ mode q.expr

namespace Command

/-- The command with its values as the mode shows them. -/
def draft (mode : BindMode) : Command → Traced Draft
  | .select q => do
    let p ← q.draft mode .select
    return p.select q.table.mapping q.table.qualifiedName
  | .count k => do
    let p ← k.query.draft mode .count
    return p.count k.query.table.mapping k.query.table.qualifiedName
  | .change (.update q o) => do
    let p ← q.draft mode .update
    .ofOutcome (p.update q.table.qualifiedName o)
  | .change (.delete q o) => do
    let p ← q.draft mode .delete
    .ofOutcome (p.delete q.table.qualifiedName o)
  | .change (.insert t values o) =>
    .ofOutcome (t.mapping.draftInsert mode t.qualifiedName values o)

/-- The verb under which the statement of the command is reported. -/
def verb? : Command → Option String
  | .select _ => some "select"
  | .count _ => none
  | .change c => some c.verb

/-- The command with placeholders, the values beside the text. -/
def draftStatement (k : Command) : Traced Statement := do
  let d ← k.draft .placeholder
  match k.verb? with
  | some verb => .report (.compiled verb d.params.length d.text)
  | none => pure ()
  return d.statement

/-- The command with its values as literals. -/
def draftInline (k : Command) : Traced String := do
  return (← k.draft .inline).text

end Command

/-- The word for batches of some kind; logged ones need none. -/
def BatchKind.word : BatchKind → String
  | .logged => ""
  | .unlogged => "UNLOGGED "
  | .counter => "COUNTER "

structure DraftBatch where
  kind : BatchKind
  timestamp : Option Timestamp := none
  /-- The changes, each as a statement and as a text with literals. -/
  entries : List (Statement × String) := []

namespace DraftBatch

/-- The batch with a change at its end, compiled for both ways of showing values. -/
def append (b : DraftBatch) (c : Change) : Traced DraftBatch := do
  let s ← (Command.change c).draftStatement
  let text ← (Command.change c).draftInline
  return { b with entries := b.entries ++ [(s, text)] }

/-- An attempt to append a change: whether it succeeds, and the batch it leaves. -/
def attempt (b : DraftBatch) (c : Change) : Outcome Unit × DraftBatch :=
  match (b.append c).outcome with
  | .ok longer => (.ok (), longer)
  | .error e => (.error e, b)

/-- The batch after attempts to append changes, from the first to the last. -/
def after (b : DraftBatch) (changes : List Change) : DraftBatch :=
  changes.foldl (fun b c => (b.attempt c).2) b

/-- The text that opens the batch, with the time of writing if there is one. -/
def opening (b : DraftBatch) (mode : BindMode) : Draft :=
  let d := (((Draft.empty mode).append "BEGIN ").append b.kind.word).append "BATCH"
  match b.timestamp with
  | some t => (d.append " USING TIMESTAMP ").bind (.bigint (Int64.ofInt t.micros))
  | none => d

/-- The batch around the texts of its changes, with no values but that of its opening. -/
def render (b : DraftBatch) (mode : BindMode) (bodies : List String) : Except Error Draft :=
  if b.entries.isEmpty then .error (.argument .emptyBatch)
  else
    let d := bodies.foldl (fun d body => (d.append body).append "; ") ((b.opening mode).append " ")
    .ok (d.append "APPLY BATCH")

/-- The batch with placeholders. The parameters of the changes follow that of the opening. -/
def statement (b : DraftBatch) : Traced Statement := do
  let d ← .ofOutcome (b.render .placeholder (b.entries.map fun entry => entry.1.cql))
  let s : Statement := ⟨d.text, d.params ++ b.entries.flatMap fun entry => entry.1.params⟩
  .report (.compiledBatch b.entries.length s.params.length)
  return s

/-- The batch with its values as literals. -/
def inline (b : DraftBatch) : Traced String := do
  return (← .ofOutcome (b.render .inline (b.entries.map Prod.snd))).text

end DraftBatch

end TypedCql
