/-!
# Text between doubled marks

CQL closes quoted identifiers and text literals with the mark that opened them; the mark
itself is written twice inside.
-/

namespace TypedCql.Text

/-- The characters with every `mark` written twice. -/
def doubled (mark : Char) : List Char → List Char
  | [] => []
  | c :: rest => if c = mark then mark :: mark :: doubled mark rest else c :: doubled mark rest

/-- The text between two marks, the marks inside it doubled. -/
def enclosed (mark : Char) (text : String) : String :=
  String.ofList (mark :: (doubled mark text.toList ++ [mark]))

end TypedCql.Text
