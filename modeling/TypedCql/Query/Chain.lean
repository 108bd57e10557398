import TypedCql.Expr.Debug
import TypedCql.Query.Compile
import TypedCql.Query.Table
import TypedCql.Statement.Select

/-!
# Query chains

A query is a table and an expression, which grows by one operator at a time around the
expression so far. Predicates, keys and projectors become lambdas if they are none.
-/

namespace TypedCql

/-- An operator that a query can be continued with. -/
inductive QueryOperator
  | filter (predicate : Expr)
  | select (projector : Expr)
  | take (count : Int32)
  | orderBy (key : Expr)
  | thenBy (key : Expr)
  | orderByDescending (key : Expr)
  | thenByDescending (key : Expr)
  | groupBy (key : Expr)
  | allowFiltering
  | first (predicate : Option Expr)
  | firstOrDefault (predicate : Option Expr)
  | updateIf (predicate : Expr)
  | deleteIf (predicate : Expr)

/-- The expression with an operator around it. -/
def QueryOperator.apply (source : Expr) : QueryOperator → Expr
  | .filter predicate => .call .filter [source, predicate.asLambda]
  | .select projector => .call .select [source, projector.asLambda]
  | .take count => .call .take [source, .constant (.int count)]
  | .orderBy key => .call .orderBy [source, key.asLambda]
  | .thenBy key => .call .thenBy [source, key.asLambda]
  | .orderByDescending key => .call .orderByDescending [source, key.asLambda]
  | .thenByDescending key => .call .thenByDescending [source, key.asLambda]
  | .groupBy key => .call .groupBy [source, key.asLambda]
  | .allowFiltering => .call .allowFiltering [source]
  | .first predicate => .call .first (source :: (predicate.map Expr.asLambda).toList)
  | .firstOrDefault predicate =>
    .call .firstOrDefault (source :: (predicate.map Expr.asLambda).toList)
  | .updateIf predicate => .call .updateIf [source, predicate.asLambda]
  | .deleteIf predicate => .call .deleteIf [source, predicate.asLambda]

structure Query where
  table : Table
  expr : Expr := .root

namespace Query

/-- The query of a table with operators applied from the first to the last. -/
def ofOperators (t : Table) (operators : List QueryOperator) : Query :=
  { table := t, expr := operators.foldl QueryOperator.apply .root }

/-- What the query comes to in a statement of some kind. -/
def compile (q : Query) (kind : StatementKind) : Traced Parts :=
  Context.compile ⟨q.table.mapping, kind⟩ q.expr

/-- The query as a selection. -/
def fragment (q : Query) : Traced Fragment := do
  let parts ← q.compile .select
  return parts.select q.table.mapping q.table.qualifiedName

def statement (q : Query) : Traced Statement := do
  let s := (← q.fragment).render .placeholder
  .report (.compiled "select" s.params.length s.cql)
  return s

/-- The selection with its values as literals. -/
def inline (q : Query) : Traced String := do
  return (← q.fragment).text .inline

/-- The query for display: its text, or why it has none. -/
def display (q : Query) : Traced String :=
  let t := q.inline
  match t.outcome with
  | .ok _ => t
  | .error e => ⟨t.events, .ok ("<invalid query: " ++ e.message ++ ">")⟩

def debug (q : Query) : String :=
  Expr.nodeText "CqlQuery" [("table", q.table.debug), ("expr", q.expr.debug)]

end Query

end TypedCql
