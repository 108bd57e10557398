import TypedCql.Text.Enclosed

/-!
# Identifiers

A name in CQL text is folded to lower case unless it stands between double quotes. A mapping
that keeps the case of its names quotes all of them; any other leaves them as they are.
-/

namespace TypedCql

structure Identifier where
  name : String
  /-- Whether the case of the name is kept, which takes quotes. -/
  quoted : Bool
  deriving Repr, DecidableEq

namespace Identifier

def text (i : Identifier) : String :=
  if i.quoted then Text.enclosed '"' i.name else i.name

/-- A table name with its keyspace in front of it, if it has one. -/
def qualified (keyspace : Option String) (table : String) (quoted : Bool) : String :=
  match keyspace with
  | some k => text ⟨k, quoted⟩ ++ "." ++ text ⟨table, quoted⟩
  | none => text ⟨table, quoted⟩

end Identifier

end TypedCql
