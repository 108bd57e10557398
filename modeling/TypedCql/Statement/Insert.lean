import TypedCql.Statement.Clause

/-!
# INSERT statements

An insertion names the columns that it gives values to. Counters cannot be inserted; a column
without a value is left out unless nulls are to be written.
-/

namespace TypedCql

structure InsertOptions where
  ifNotExists : Bool := false
  /-- Seconds to live. -/
  ttl : Option Int32 := none
  timestamp : Option Timestamp := none
  /-- Whether an absent value is written as null. -/
  insertNulls : Bool := false

/-- The columns that are written, with their values. -/
def keptColumns (insertNulls : Bool) :
    List (Column × Value) → Except Error (List (Column × Value))
  | [] => .ok []
  | (c, v) :: rest =>
    if c.counter then
      if v.isNull then keptColumns insertNulls rest
      else .error (.mapping (.counterInserted c.name))
    else if v.isNull && !insertNulls then keptColumns insertNulls rest
    else do
      let kept ← keptColumns insertNulls rest
      return (c, v) :: kept

/-- The insertion of one value for each column, in the order of the columns. -/
def Mapping.insert (m : Mapping) (table : String) (values : List Value) (o : InsertOptions) :
    Except Error Fragment := do
  if values.length ≠ m.columns.length then
    throw (.argument (.valueCount m.columns.length m.entity.name values.length))
  let kept ← keptColumns o.insertNulls (m.columns.zip values)
  if kept.isEmpty then
    throw (.argument (.nothingToInsert table))
  return [.verbatim "INSERT INTO ", .verbatim table, .verbatim " ("]
    ++ Fragment.nameList (kept.map fun (c, _) => m.identifier c.name)
    ++ .verbatim ") VALUES (" :: Fragment.valueList (kept.map Prod.snd) ++ [.verbatim ")"]
    ++ (if o.ifNotExists then [.verbatim " IF NOT EXISTS"] else [])
    ++ Fragment.usingOptions o.ttl o.timestamp

end TypedCql
