import TypedCql.Drafting.Parts
import TypedCql.Statement.Change
import TypedCql.Statement.Insert
import TypedCql.Statement.Select

/-!
# Assembling drafts

The statements put together of texts and drafts: a clause is placed with its values, and a list of
assignments or of values is written around what stands for each value. Values are bound in the order
in which their places are written.
-/

namespace TypedCql

namespace Draft

/-- The draft with a keyword and a clause at its end. A clause that is empty is left out with its
keyword. -/
def appendClause (d : Draft) (keyword : String) (clause : Draft) : Draft :=
  if clause.isEmpty then d else ((d.append keyword).append clause.text).adopt clause

/-- The draft with a keyword and a list of texts at its end, if there are any. -/
def appendList (d : Draft) (keyword : String) (texts : List String) : Draft :=
  if texts.isEmpty then d else d.append (keyword ++ ", ".intercalate texts)

def appendIf (d : Draft) (condition : Bool) (text : String) : Draft :=
  if condition then d.append text else d

def appendLimit (d : Draft) : Option Int32 → Draft
  | some n => (d.append " LIMIT ").bind (.int n)
  | none => d

/-- Texts around values that are bound one after the other: the texts, each made of what stands for
its value, and the draft that binds the values. -/
def reserveEach (d : Draft) : List (Value × (String → String)) → List String × Draft
  | [] => ([], d)
  | (v, around) :: rest =>
    let first := d.reserve v
    let others := first.2.reserveEach rest
    (around first.1 :: others.1, others.2)

/-- The options of a change, each with its keyword. -/
def changeOptions (ttl : Option Int32) (timestamp : Option Timestamp) : List (String × Value) :=
  (ttl.toList.map fun n => ("TTL ", .int n)) ++
    timestamp.toList.map fun t => ("TIMESTAMP ", .bigint (Int64.ofInt t.micros))

/-- The draft with the time to live and the time of writing at its end, if there is one of them. -/
def appendUsing (d : Draft) (ttl : Option Int32) (timestamp : Option Timestamp) : Draft :=
  let options := d.reserveEach ((changeOptions ttl timestamp).map fun x => (x.2, (x.1 ++ ·)))
  if options.1.isEmpty then d
  else options.2.append (" USING " ++ " AND ".intercalate options.1)

end Draft

namespace DraftParts

/-- The selected fields; all columns if no projection contributed one. -/
def fieldList (p : DraftParts) (m : Mapping) : String :=
  ", ".intercalate (if p.fields.isEmpty then m.columnNames.map Identifier.text else p.fields)

def select (p : DraftParts) (m : Mapping) (table : String) : Draft :=
  (Draft.empty p.mode).append ("SELECT " ++ p.fieldList m ++ " FROM " ++ table)
    |>.appendClause " WHERE " p.rowConditions
    |>.appendList " GROUP BY " p.groupBy
    |>.appendList " ORDER BY " (p.orderBy.map fun k => if k.2 then k.1 else k.1 ++ " DESC")
    |>.appendLimit p.limit
    |>.appendIf (p.allowFiltering || m.allowFiltering) " ALLOW FILTERING"

/-- The number of rows that the conditions choose. -/
def count (p : DraftParts) (m : Mapping) (table : String) : Draft :=
  (Draft.empty p.mode).append ("SELECT count(*) FROM " ++ table)
    |>.appendClause " WHERE " p.rowConditions
    |>.appendLimit p.limit
    |>.appendIf (p.allowFiltering || m.allowFiltering) " ALLOW FILTERING"

/-- An update assigns something. -/
def update (p : DraftParts) (table : String) (o : UpdateOptions) : Except Error Draft :=
  if p.assignments.isEmpty then .error (.conflict .nothingToUpdate)
  else
    let d := ((Draft.empty p.mode).append ("UPDATE " ++ table)).appendUsing o.ttl o.timestamp
    let assignments := d.reserveEach (p.assignments.map fun a => (a.value, a.text))
    .ok (assignments.2.append (" SET " ++ ", ".intercalate assignments.1)
      |>.appendClause " WHERE " p.rowConditions |>.appendClause " IF " p.changeConditions)

/-- Only whole rows are deleted, and either if they exist or under conditions. -/
def delete (p : DraftParts) (table : String) (o : DeleteOptions) : Except Error Draft :=
  if !p.fields.isEmpty || !p.assignments.isEmpty then .error (.conflict .projectedDelete)
  else if o.ifExists && !p.changeConditions.isEmpty then
    .error (.conflict .existsWithConditions)
  else
    let d := ((Draft.empty p.mode).append ("DELETE FROM " ++ table)).appendUsing none o.timestamp
      |>.appendClause " WHERE " p.rowConditions
    .ok (if o.ifExists then d.append " IF EXISTS" else d.appendClause " IF " p.changeConditions)

end DraftParts

/-- An insertion whose columns are looked at one after the other. -/
structure DraftInsertion where
  columns : List String := []
  /-- What stands for the values. -/
  values : List String := []
  /-- The draft that binds the values. -/
  draft : Draft

namespace DraftInsertion

/-- The insertion with a column and its value. -/
def keep (i : DraftInsertion) (column : String) (v : Value) : DraftInsertion :=
  let value := i.draft.reserve v
  ⟨i.columns ++ [column], i.values ++ [value.1], value.2⟩

/-- The insertion with the columns that are written. -/
def keepAll (m : Mapping) (insertNulls : Bool) :
    DraftInsertion → List (Column × Value) → Except Error DraftInsertion
  | i, [] => .ok i
  | i, (c, v) :: rest =>
    if c.counter then
      if v.isNull then keepAll m insertNulls i rest
      else .error (.mapping (.counterInserted c.name))
    else if v.isNull && !insertNulls then keepAll m insertNulls i rest
    else keepAll m insertNulls (i.keep (m.identifier c.name).text v) rest

/-- The insertion into a table, up to its options. -/
def intoTable (i : DraftInsertion) (table : String) : Draft :=
  i.draft.append ("INSERT INTO " ++ table ++ " (" ++ ", ".intercalate i.columns
    ++ ") VALUES (" ++ ", ".intercalate i.values ++ ")")

end DraftInsertion

/-- The insertion of one value for each column, in the order of the columns. -/
def Mapping.draftInsert (m : Mapping) (mode : BindMode) (table : String) (values : List Value)
    (o : InsertOptions) : Except Error Draft := do
  if values.length ≠ m.columns.length then
    throw (.argument (.valueCount m.columns.length m.entity.name values.length))
  let i ← DraftInsertion.keepAll m o.insertNulls { draft := .empty mode } (m.columns.zip values)
  if i.columns.isEmpty then
    throw (.argument (.nothingToInsert table))
  return (i.intoTable table).appendIf o.ifNotExists " IF NOT EXISTS"
    |>.appendUsing o.ttl o.timestamp

end TypedCql
