/-!
# Kinds of statements and phases of compilation
-/

namespace TypedCql

/-- The statement that a query is compiled for. -/
inductive StatementKind
  | select
  | count
  | update
  | delete
  deriving Repr, DecidableEq

/-- The name of the kind in diagnostics. -/
def StatementKind.name : StatementKind → String
  | .select => "Select"
  | .count => "Count"
  | .update => "Update"
  | .delete => "Delete"

/-- What an expression means where the compiler meets it. -/
inductive Phase
  /-- The chain of query operators itself. -/
  | chain
  /-- The argument of a projection. -/
  | select
  | condition
  /-- The body of a projection: members name columns, values are assigned. -/
  | binding
  | take
  | orderBy
  | orderByDescending
  | groupBy
  deriving Repr, DecidableEq

/-- The name of the phase in diagnostics. -/
def Phase.name : Phase → String
  | .chain => "None"
  | .select => "Select"
  | .condition => "Condition"
  | .binding => "SelectBinding"
  | .take => "Take"
  | .orderBy => "OrderBy"
  | .orderByDescending => "OrderByDescending"
  | .groupBy => "GroupBy"

end TypedCql
