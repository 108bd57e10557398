import TypedCql.Statement.Clause

/-!
# SELECT statements
-/

namespace TypedCql

namespace Parts

/-- The selected fields; all columns if no projection contributed one. -/
def fieldList (p : Parts) (m : Mapping) : Fragment :=
  if p.fields.isEmpty then Fragment.nameList m.columnNames
  else Fragment.joined ", " (p.fields.map Field.fragment)

def select (p : Parts) (m : Mapping) (table : String) : Fragment :=
  .verbatim "SELECT " :: p.fieldList m ++ [.verbatim " FROM ", .verbatim table]
    ++ Fragment.after " WHERE " p.rowConditions
    ++ (if p.groupBy.isEmpty then [] else .verbatim " GROUP BY " :: Fragment.nameList p.groupBy)
    ++ (if p.orderBy.isEmpty then []
        else .verbatim " ORDER BY " :: Fragment.joined ", " (p.orderBy.map OrderKey.fragment))
    ++ Fragment.limit p.limit ++ m.filteringClause p

/-- The number of rows that the conditions choose. -/
def count (p : Parts) (m : Mapping) (table : String) : Fragment :=
  [.verbatim "SELECT count(*) FROM ", .verbatim table] ++ Fragment.after " WHERE " p.rowConditions
    ++ Fragment.limit p.limit ++ m.filteringClause p

end Parts

end TypedCql
