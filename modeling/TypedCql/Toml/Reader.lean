import TypedCql.Toml.Section
import TypedCql.Toml.Token

/-!
# Reading TOML

A document is read line by line: headers choose the table that the following keys belong to.
-/

namespace TypedCql

namespace Toml

/-- The values of a list up to its closing bracket, with white space, comments and line ends
anywhere between them. A comma may follow the last value. -/
def listItems (value : Reader Toml) : Nat → Reader (List Toml)
  | 0, _ => none
  | most + 1, cs =>
    match skipLines cs.length cs with
    | ']' :: rest => some ([], rest)
    | cs => do
      let (item, rest) ← value cs
      match skipLines rest.length rest with
      | ',' :: rest => do
        let (items, rest) ← listItems value most rest
        return (item :: items, rest)
      | ']' :: rest => return ([item], rest)
      | _ => none

/-- A key with its value. -/
def keyValue (value : Reader Toml) : Reader (List String × String × Toml) := fun cs => do
  let (keys, rest) ← key cs
  let rest ← after? '=' rest
  let (v, rest) ← value (skipSpace rest)
  return ((keys.dropLast, keys.getLast?.getD "", v), rest)

/-- The entries of a table in one line up to its closing brace. No comma follows the last. -/
def lineEntries (value : Reader Toml) : Nat → Section.Entries → Reader Section.Entries
  | 0, _, _ => none
  | most + 1, entries, cs => do
    let ((path, key, v), rest) ← keyValue value cs
    let entries ← Section.setValue path key v .opened entries
    match skipSpace rest with
    | ',' :: rest => lineEntries value most entries rest
    | '\x7d' :: rest => return (entries, rest)
    | _ => none

/-- A value with lists and tables nested at most `depth` deep in it. -/
def value : Nat → Reader Toml
  | depth, cs =>
    match cs with
    | '"' :: _ => (quotedText '"' cs).map fun (t, rest) => (.text t, rest)
    | '\'' :: _ => (quotedText '\'' cs).map fun (t, rest) => (.text t, rest)
    | 't' :: 'r' :: 'u' :: 'e' :: rest => some (.flag true, rest)
    | 'f' :: 'a' :: 'l' :: 's' :: 'e' :: rest => some (.flag false, rest)
    | '[' :: rest =>
      match depth with
      | 0 => none
      | depth + 1 =>
        (listItems (value depth) cs.length rest).map fun (items, rest) => (.list items, rest)
    | '\x7b' :: rest =>
      match depth with
      | 0 => none
      | depth + 1 =>
        match skipSpace rest with
        | '\x7d' :: rest => some (.table [], rest)
        | rest =>
          (lineEntries (value depth) cs.length [] rest).map fun (entries, rest) =>
            (.table (Section.entriesToToml entries), rest)
    | cs =>
      match afterMoment? cs with
      | some rest => some (.moment, rest)
      | none =>
        match afterFloat? cs with
        | some rest => some (.number, rest)
        | none => (afterInteger? cs).map fun rest => (.number, rest)

/-- A document being read: its tables, and the path to the one that keys are added to. -/
structure State where
  entries : Section.Entries := []
  path : List String := []

/-- Changes the table of the path without its last key, with that key at hand. -/
def State.header (s : State) (keys : List String)
    (change : String → Origin → Section.Entries → Option Section.Entries) : Option State := do
  let last ← keys.getLast?
  let entries ← Section.changeAt false (change last) keys.dropLast .opened s.entries
  return { entries := entries, path := keys }

/-- Reads one line, with all the lines that its value goes on over. -/
def readLine (s : State) (cs : List Char) : Option (State × List Char) :=
  match skipSpace cs with
  | '[' :: '[' :: rest => do
    let (keys, rest) ← key rest
    let rest ← after? ']' rest
    let rest ← after? ']' rest
    let rest ← endOfLine? rest
    let s ← s.header keys Section.addTable
    return (s, rest)
  | '[' :: rest => do
    let (keys, rest) ← key rest
    let rest ← after? ']' rest
    let rest ← endOfLine? rest
    let s ← s.header keys Section.openTable
    return (s, rest)
  | cs =>
    match endOfLine? cs with
    | some rest => some (s, rest)
    | none => do
      let ((path, key, v), rest) ← keyValue (value depthLimit) cs
      let rest ← endOfLine? rest
      let entries ←
        Section.changeAt false (Section.setValue path key v) s.path .opened s.entries
      return ({ s with entries := entries }, rest)

/-- Reads up to the end of the text. Every line is at least one character long. -/
def readLines : Nat → State → List Char → Option State
  | _, s, [] => some s
  | 0, _, _ => none
  | most + 1, s, cs => do
    let (s, rest) ← readLine s cs
    readLines most s rest

/-- The document that a text spells. A byte order mark at its start is passed over. -/
def ofChars? (cs : List Char) : Option Toml :=
  let cs := if cs.head? = some '\ufeff' then cs.drop 1 else cs
  (readLines cs.length {} cs).map fun s => .table (Section.entriesToToml s.entries)

def parse? (text : String) : Option Toml := ofChars? text.toList

end Toml

end TypedCql
