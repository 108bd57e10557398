import TypedCql.Mapping.Basic
import TypedCql.Query.Parts

/-!
# Clauses

The pieces that statements share. A clause with nothing to say is left out with its keyword.
-/

namespace TypedCql

namespace Fragment

/-- A keyword with what follows it, or nothing. -/
def after (keyword : String) (f : Fragment) : Fragment :=
  if f.isBlank then [] else .verbatim keyword :: f

/-- Names with commas between them. -/
def nameList (names : List Identifier) : Fragment :=
  joined ", " (names.map fun i => [.name i])

/-- The limit on the number of rows. -/
def limit : Option Int32 → Fragment
  | some n => [.verbatim " LIMIT ", .value (.int n)]
  | none => []

/-- The time to live, in seconds, and the time of writing, in microseconds. -/
def usingOptions (ttl : Option Int32) (timestamp : Option Timestamp) : Fragment :=
  let ttl := ttl.toList.map fun n => [Piece.verbatim "TTL ", .value (.int n)]
  let timestamp := timestamp.toList.map fun t =>
    [Piece.verbatim "TIMESTAMP ", .value (.bigint (Int64.ofInt t.micros))]
  after " USING " (joined " AND " (ttl ++ timestamp))

end Fragment

namespace Mapping

/-- Every column, in the order of the members. -/
def columnNames (m : Mapping) : List Identifier := m.columns.map fun c => m.identifier c.name

/-- Permission to search rows without an index. -/
def filteringClause (m : Mapping) (p : Parts) : Fragment :=
  if p.allowFiltering || m.allowFiltering then [.verbatim " ALLOW FILTERING"] else []

end Mapping

end TypedCql
