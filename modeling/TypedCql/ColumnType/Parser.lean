import TypedCql.ColumnType.Basic
import TypedCql.Text.Alphanumeric
import TypedCql.Text.Blank
import TypedCql.Text.Quoted

/-!
# Reading column types

A type is a name, followed by its parameters between angle brackets where the name asks for
them. Names may be written in any case; a name that is no scalar is the name of a type that
users define. White space around the whole text is of any kind; between the tokens there may
be blanks, tabs and line ends.
-/

namespace TypedCql

namespace ColumnType

/-- What was missing where reading stopped. -/
inductive Expected
  /-- A name. -/
  | name
  /-- A bracket or comma. -/
  | mark
  deriving Repr, DecidableEq

/-- Reading stopped for want of something, with this text left. -/
structure Failure where
  expected : Expected
  rest : List Char

/-- Why a text is no type. -/
inductive ParseError
  | failed (failure : Failure)
  /-- A type was read, and visible text follows it from a position counted in bytes. -/
  | trailing (position : Nat) (rest : List Char)

/-- The characters that may stand between tokens. -/
def isGap (c : Char) : Bool := c = ' ' ∨ c = '\t' ∨ c = '\r' ∨ c = '\n'

def skipGap (cs : List Char) : List Char := cs.dropWhile isGap

/-- The characters of names; a point separates a keyspace from a type. -/
def isNameChar (c : Char) : Bool := Text.isAlphanumeric c || c == '_' || c == '.'

/-- A reader takes something off the front of a text. -/
abbrev Reader (α : Type) := List Char → Except Failure (α × List Char)

/-- The longest name at the start. -/
def readName : Reader (List Char) := fun cs =>
  let name := cs.takeWhile isNameChar
  if name.isEmpty then .error ⟨.name, cs⟩ else .ok (name, cs.dropWhile isNameChar)

def readMark (mark : Char) (cs : List Char) : Except Failure (List Char) :=
  match cs with
  | c :: rest => if c = mark then .ok rest else .error ⟨.mark, cs⟩
  | [] => .error ⟨.mark, cs⟩

/-- A comma with the gaps around it. -/
def readComma (cs : List Char) : Except Failure (List Char) := do
  return skipGap (← readMark ',' (skipGap cs))

/-- A body between angle brackets, with a gap before the closing one. -/
def bracketed (body : Reader α) : Reader α := fun cs => do
  let cs ← readMark '<' cs
  let (a, cs) ← body cs
  let cs ← readMark '>' (skipGap cs)
  return (a, cs)

/-- Two items with a comma between them. -/
def pairOf (item : Reader α) : Reader (α × α) := fun cs => do
  let (a, cs) ← item cs
  let cs ← readComma cs
  let (b, cs) ← item cs
  return ((a, b), cs)

/-- Up to `most` further items, each after a comma. Where no comma with an item after it
follows, reading stops in front of that comma. -/
def moreOf (item : Reader α) : Nat → List Char → List α × List Char
  | 0, cs => ([], cs)
  | most + 1, cs =>
    match readComma cs >>= item with
    | .error _ => ([], cs)
    | .ok (a, rest) =>
      let (others, rest) := moreOf item most rest
      (a :: others, rest)

/-- One or more items with commas between them. -/
def listOf (item : Reader α) : Reader (List α) := fun cs => do
  let (first, cs) ← item cs
  let (others, cs) := moreOf item cs.length cs
  return (first :: others, cs)

/-- One type with the gap before it, its parameters nested at most `depth` deep. -/
def read : Nat → Reader ColumnType
  | 0, cs => .error ⟨.name, cs⟩
  | depth + 1, cs => do
    let (name, cs) ← readName (skipGap cs)
    let cs := skipGap cs
    match String.ofList (name.map Char.toLower) with
    | "list" => do
      let (element, cs) ← bracketed (read depth) cs
      return (.list element, cs)
    | "set" => do
      let (element, cs) ← bracketed (read depth) cs
      return (.set element, cs)
    | "frozen" => do
      let (inner, cs) ← bracketed (read depth) cs
      return (inner.freeze, cs)
    | "map" => do
      let ((key, value), cs) ← bracketed (pairOf (read depth)) cs
      return (.map key value, cs)
    | "tuple" => do
      let (elements, cs) ← bracketed (listOf (read depth)) cs
      return (.tuple elements, cs)
    | lower => return ((Scalar.ofName? lower).elim (.udt (String.ofList name)) .scalar, cs)

/-- The bytes that a text takes in UTF-8. -/
def byteCount (cs : List Char) : Nat := cs.foldl (fun n c => n + c.utf8Size) 0

/-- The type that the characters spell. A text cannot nest deeper than it is long. -/
def ofChars (cs : List Char) : Except ParseError ColumnType :=
  let cs := Text.trim cs
  match read (cs.length + 1) cs with
  | .error failure => .error (.failed failure)
  | .ok (type, rest) =>
    match skipGap rest with
    | [] => .ok type
    | rest => .error (.trailing (byteCount cs - byteCount rest) rest)

def ofText (text : String) : Except ParseError ColumnType := ofChars text.toList

namespace ParseError

/-- Where reading stopped; a missing token is reported at the start. -/
def position : ParseError → Nat
  | .failed _ => 0
  | .trailing position _ => position

def message : ParseError → String
  | .failed ⟨expected, rest⟩ =>
    let code := match expected with
      | .name => "TakeWhile1"
      | .mark => "Char"
    "Parse failed: Error(Error \x7b input: " ++ Text.quoted (String.ofList rest) ++ ", code: "
      ++ code ++ " \x7d)"
  | .trailing _ rest => "Unexpected trailing content: '" ++ String.ofList rest ++ "'"

end ParseError

end ColumnType

end TypedCql
