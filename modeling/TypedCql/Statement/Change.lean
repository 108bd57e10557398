import TypedCql.Statement.Clause

/-!
# UPDATE and DELETE statements

Both change the rows that a query chooses, under its conditions for change.
-/

namespace TypedCql

structure UpdateOptions where
  /-- Seconds to live. -/
  ttl : Option Int32 := none
  timestamp : Option Timestamp := none

structure DeleteOptions where
  timestamp : Option Timestamp := none
  ifExists : Bool := false

namespace Parts

/-- An update assigns something. -/
def update (p : Parts) (table : String) (o : UpdateOptions) : Except Error Fragment :=
  if p.assignments.isEmpty then .error (.conflict .nothingToUpdate)
  else
    .ok ([.verbatim "UPDATE ", .verbatim table] ++ Fragment.usingOptions o.ttl o.timestamp
      ++ .verbatim " SET " :: Fragment.joined ", " (p.assignments.map Assignment.fragment)
      ++ Fragment.after " WHERE " p.rowConditions ++ Fragment.after " IF " p.changeConditions)

/-- Only whole rows are deleted, and either if they exist or under conditions. -/
def delete (p : Parts) (table : String) (o : DeleteOptions) : Except Error Fragment :=
  if !p.fields.isEmpty || !p.assignments.isEmpty then .error (.conflict .projectedDelete)
  else if o.ifExists && !p.changeConditions.isBlank then
    .error (.conflict .existsWithConditions)
  else
    .ok ([.verbatim "DELETE FROM ", .verbatim table] ++ Fragment.usingOptions none o.timestamp
      ++ Fragment.after " WHERE " p.rowConditions
      ++ if o.ifExists then [.verbatim " IF EXISTS"] else Fragment.after " IF " p.changeConditions)

end Parts

end TypedCql
