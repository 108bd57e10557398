import TypedCql.Cql.Fragment

/-!
# Statements under construction

A draft is CQL text that grows at its end, with the values bound so far. How values appear is
decided before anything is written, while a fragment leaves it open to the end; pushing the pieces
of a fragment one by one gives its rendering (`foldl_push`).
-/

namespace TypedCql

structure Draft where
  mode : BindMode
  text : String
  params : List Value

namespace Draft

def empty (mode : BindMode) : Draft := ⟨mode, "", []⟩

def isEmpty (d : Draft) : Bool := d.text.isEmpty

/-- The draft with text at its end. -/
def append (d : Draft) (text : String) : Draft := { d with text := d.text ++ text }

/-- A value for text that is placed later: what stands for it there, and the draft that binds it. -/
def reserve (d : Draft) (v : Value) : String × Draft :=
  ((Piece.value v).text d.mode, { d with params := d.params ++ Fragment.params d.mode [.value v] })

/-- The draft with a value at its end, as the mode shows it. -/
def bind (d : Draft) (v : Value) : Draft :=
  { d with
    text := d.text ++ (Piece.value v).text d.mode
    params := d.params ++ Fragment.params d.mode [.value v] }

/-- The draft with the values of another one, whose text is placed after its own. -/
def adopt (d other : Draft) : Draft := { d with params := d.params ++ other.params }

/-- The draft as a statement. -/
def statement (d : Draft) : Statement := ⟨d.text, d.params⟩

/-- The draft with a piece at its end. -/
def push (d : Draft) : Piece → Draft
  | .verbatim text => d.append text
  | .name i => d.append i.text
  | .value v => d.bind v

/-- The draft with the pieces of a fragment at its end. -/
def extend (d : Draft) (f : Fragment) : Draft := f.foldl push d

/-- The rendering of a fragment. -/
def ofFragment (mode : BindMode) (f : Fragment) : Draft := ⟨mode, f.text mode, f.params mode⟩

/-- Pushing the pieces of a fragment appends its text and its parameters. -/
theorem foldl_push (d : Draft) (f : Fragment) :
    f.foldl push d = ⟨d.mode, d.text ++ f.text d.mode, d.params ++ f.params d.mode⟩ := by
  induction f generalizing d with
  | nil =>
    obtain ⟨mode, text, params⟩ := d
    cases mode <;> simp [Fragment.text, Fragment.params, Fragment.values]
  | cons p rest ih =>
    rw [List.foldl_cons, ih]
    cases p <;> cases hm : d.mode <;>
      simp [push, append, bind, hm, Fragment.text, Fragment.params, Fragment.values, Piece.text,
        Piece.value?, String.append_assoc, List.filterMap_cons]

theorem extend_append (d : Draft) (f g : Fragment) : d.extend (f ++ g) = (d.extend f).extend g :=
  List.foldl_append

/-- A rendering is continued by the pieces of another fragment. -/
theorem extend_ofFragment (mode : BindMode) (f g : Fragment) :
    (ofFragment mode f).extend g = ofFragment mode (f ++ g) := by
  have hempty : ∀ f, (empty mode).extend f = ofFragment mode f := by
    intro f
    rw [extend, foldl_push]
    simp [empty, ofFragment]
  rw [← hempty, ← hempty, extend_append]

end Draft

end TypedCql
