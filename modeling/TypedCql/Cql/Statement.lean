import TypedCql.Value.Literal

/-!
# Statements

CQL text with the values that its placeholders bind, from left to right.
-/

namespace TypedCql

/-- How values appear in CQL text. -/
inductive BindMode
  /-- As placeholders, the values standing beside the text. -/
  | placeholder
  /-- As literals, for display and logging. -/
  | inline
  deriving Repr, DecidableEq

structure Statement where
  cql : String
  params : List Value

end TypedCql
