import TypedCql.Cql.Identifier
import TypedCql.Cql.Statement

/-!
# Fragments of CQL

A fragment is CQL before it is decided how its values appear: pieces of fixed text, names of
columns, and values. Both renderings of a fragment come from the same pieces, so a placeholder
and its value can never be out of step.
-/

namespace TypedCql

inductive Piece
  | verbatim (text : String)
  | name (i : Identifier)
  | value (v : Value)

namespace Piece

def text (mode : BindMode) : Piece → String
  | .verbatim t => t
  | .name i => i.text
  | .value v =>
    match mode with
    | .placeholder => "?"
    | .inline => v.literal

/-- The value that the piece binds in the placeholder rendering. -/
def value? : Piece → Option Value
  | .value v => some v
  | _ => none

/-- Whether the piece shows at all; a value always does. -/
def isBlank : Piece → Bool
  | .verbatim t => t.isEmpty
  | .name i => i.text.isEmpty
  | .value _ => false

end Piece

/-- CQL text with holes for values. -/
abbrev Fragment := List Piece

namespace Fragment

def text (mode : BindMode) (f : Fragment) : String :=
  String.join (f.map (Piece.text mode))

/-- The values of the fragment in the order of their places. -/
def values (f : Fragment) : List Value := f.filterMap Piece.value?

def params (mode : BindMode) (f : Fragment) : List Value :=
  match mode with
  | .placeholder => f.values
  | .inline => []

/-- Whether nothing of the fragment shows, in either rendering. -/
def isBlank (f : Fragment) : Bool := f.all Piece.isBlank

def render (mode : BindMode) (f : Fragment) : Statement := ⟨f.text mode, f.params mode⟩

/-- Fragments with a text between each two of them. -/
def joined (separator : String) : List Fragment → Fragment
  | [] => []
  | [f] => f
  | f :: rest => f ++ .verbatim separator :: joined separator rest

/-- Values with commas between them. -/
def valueList (values : List Value) : Fragment :=
  joined ", " (values.map fun v => [.value v])

end Fragment

end TypedCql
