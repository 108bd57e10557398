import TypedCql.Cql.Fragment

/-!
# Parts of a statement

What the operators of a query contribute, each to a part of its own. The parts do not depend
on how values are shown, nor on the statement they end up in.
-/

namespace TypedCql

/-- A selected field: a column, the count of all rows, or an aggregate of a field. -/
inductive Field
  | column (i : Identifier)
  | countAll
  | aggregate (function : String) (field : Field)

namespace Field

def fragment : Field → Fragment
  | .column i => [.name i]
  | .countAll => [.verbatim "COUNT(*)"]
  | .aggregate function field => .verbatim (function ++ "(") :: (field.fragment ++ [.verbatim ")"])

/-- The field as it appears in statements; it holds no values. -/
def text (f : Field) : String := f.fragment.text .inline

end Field

/-- How an assignment combines its value with the column. -/
inductive AssignmentKind
  | assign
  /-- Add to a counter. -/
  | increment
  /-- Subtract from a counter. -/
  | decrement
  /-- Add elements at the end of a collection. -/
  | append
  /-- Add elements at the start of a list. -/
  | prepend
  /-- Take elements out of a collection. -/
  | remove
  deriving Repr, DecidableEq

/-- The assignment of a value to a column. -/
def AssignmentKind.fragment (kind : AssignmentKind) (column value : Piece) : Fragment :=
  match kind with
  | .assign => [column, .verbatim " = ", value]
  | .increment | .append => [column, .verbatim " = ", column, .verbatim " + ", value]
  | .decrement | .remove => [column, .verbatim " = ", column, .verbatim " - ", value]
  | .prepend => [column, .verbatim " = ", value, .verbatim " + ", column]

structure Assignment where
  column : Identifier
  value : Value
  kind : AssignmentKind

def Assignment.fragment (a : Assignment) : Fragment :=
  a.kind.fragment (.name a.column) (.value a.value)

/-- A column that rows are sorted by. -/
structure OrderKey where
  column : Identifier
  ascending : Bool

def OrderKey.fragment (k : OrderKey) : Fragment :=
  if k.ascending then [.name k.column] else [.name k.column, .verbatim " DESC"]

/-- Which conditions a predicate adds to. -/
inductive ConditionTarget
  /-- Those that choose the rows. -/
  | rows
  /-- Those under which the rows are changed. -/
  | change
  deriving Repr, DecidableEq

structure Parts where
  rowConditions : Fragment := []
  changeConditions : Fragment := []
  /-- The selected fields; all columns if there are none. -/
  fields : List Field := []
  orderBy : List OrderKey := []
  groupBy : List Identifier := []
  limit : Option Int32 := none
  allowFiltering : Bool := false
  assignments : List Assignment := []

namespace Parts

def conditions (p : Parts) : ConditionTarget → Fragment
  | .rows => p.rowConditions
  | .change => p.changeConditions

/-- The parts with more text at the end of some conditions. -/
def addCondition (p : Parts) (target : ConditionTarget) (f : Fragment) : Parts :=
  match target with
  | .rows => { p with rowConditions := p.rowConditions ++ f }
  | .change => { p with changeConditions := p.changeConditions ++ f }

end Parts

end TypedCql
