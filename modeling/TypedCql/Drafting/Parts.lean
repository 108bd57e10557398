import TypedCql.Cql.Draft
import TypedCql.Query.Parts

/-!
# Parts under construction

The parts of a statement when it is decided from the start how values appear. Conditions are drafts,
and names and keys are text at once; only the values of assignments wait for their place.
-/

namespace TypedCql

/-- An assignment to a column that is text already. -/
structure DraftAssignment where
  column : String
  value : Value
  kind : AssignmentKind

/-- The assignment around the text that stands for its value. -/
def DraftAssignment.text (a : DraftAssignment) (value : String) : String :=
  match a.kind with
  | .assign => a.column ++ " = " ++ value
  | .increment | .append => a.column ++ " = " ++ a.column ++ " + " ++ value
  | .decrement | .remove => a.column ++ " = " ++ a.column ++ " - " ++ value
  | .prepend => a.column ++ " = " ++ value ++ " + " ++ a.column

structure DraftParts where
  mode : BindMode
  rowConditions : Draft
  changeConditions : Draft
  fields : List String := []
  /-- Columns, each with whether it sorts in ascending order. -/
  orderBy : List (String × Bool) := []
  groupBy : List String := []
  limit : Option Int32 := none
  allowFiltering : Bool := false
  assignments : List DraftAssignment := []

namespace DraftParts

def empty (mode : BindMode) : DraftParts where
  mode := mode
  rowConditions := .empty mode
  changeConditions := .empty mode

def conditions (p : DraftParts) : ConditionTarget → Draft
  | .rows => p.rowConditions
  | .change => p.changeConditions

/-- The parts with some conditions written further. -/
def onConditions (p : DraftParts) (target : ConditionTarget) (f : Draft → Draft) : DraftParts :=
  match target with
  | .rows => { p with rowConditions := f p.rowConditions }
  | .change => { p with changeConditions := f p.changeConditions }

end DraftParts

end TypedCql
