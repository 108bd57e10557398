import TypedCql.Expr.Operator
import TypedCql.Query.Parts
import TypedCql.Query.Phase

/-!
# Scopes

A scope tells what an expression means at its place: the phase, the conditions a predicate
adds to, the comparison around a three-way comparison, and the member a value is assigned to.
It is handed down, so that one expression cannot change the meaning of its neighbour.
-/

namespace TypedCql

structure Scope where
  phase : Phase := .chain
  target : ConditionTarget := .rows
  /-- The comparison whose operand is a three-way comparison. -/
  comparison : Option BinaryOp := none
  /-- The member that values are assigned to. -/
  member : Option String := none

namespace Scope

/-- The scope in another phase, where neither comparison nor member is known yet. -/
def enter (s : Scope) (phase : Phase) : Scope := ⟨phase, s.target, none, none⟩

/-- The scope of a predicate. -/
def condition (s : Scope) (target : ConditionTarget) : Scope :=
  { s.enter .condition with target := target }

def compared (s : Scope) (op : BinaryOp) : Scope := { s with comparison := some op }

def uncompared (s : Scope) : Scope := { s with comparison := none }

def assigning (s : Scope) (member : String) : Scope := { s with member := some member }

end Scope

end TypedCql
