import TypedCql.Value.Basic

/-!
# Values of a program as CQL values

Every type of value has its counterpart among the types of the program. An absent value is
null, and any number of values of one type are a list.
-/

namespace TypedCql

class ToValue (α : Type) where
  toValue : α → Value

export ToValue (toValue)

instance : ToValue Value := ⟨id⟩

instance : ToValue Bool := ⟨.boolean⟩

instance : ToValue Int32 := ⟨.int⟩

instance : ToValue Int64 := ⟨.bigint⟩

instance : ToValue Float32 := ⟨.float⟩

instance : ToValue Float := ⟨.double⟩

instance : ToValue String := ⟨.text⟩

instance : ToValue Uuid := ⟨.uuid⟩

instance : ToValue Timestamp := ⟨.timestamp⟩

instance [ToValue α] : ToValue (Option α) := ⟨fun a => a.elim .null toValue⟩

instance [ToValue α] : ToValue (List α) := ⟨fun items => .list (items.map toValue)⟩

end TypedCql
