import TypedCql.Json.Basic

/-!
# Reading JSON documents

Only the grammar is checked here: what the numbers and escapes stand for is left to whoever
takes the document apart.
-/

namespace TypedCql

namespace Json

/-- White space between tokens. -/
def isSpace (c : Char) : Bool := c = ' ' ∨ c = '\t' ∨ c = '\n' ∨ c = '\r'

def skipSpace (cs : List Char) : List Char := cs.dropWhile isSpace

/-- The spelling of a text up to its closing quote, and what follows the quote. Controls must
be escaped. -/
def scanText : List Char → Option (List Char × List Char)
  | '"' :: rest => some ([], rest)
  | '\\' :: 'u' :: a :: b :: c :: d :: rest =>
    if (unit? a b c d).isSome then
      (scanText rest).map fun (spelt, rest) => ('\\' :: 'u' :: a :: b :: c :: d :: spelt, rest)
    else none
  | '\\' :: c :: rest =>
    if (escaped? c).isSome then
      (scanText rest).map fun (spelt, rest) => ('\\' :: c :: spelt, rest)
    else none
  | c :: rest =>
    if c.toNat < 0x20 ∨ c = '\\' then none
    else (scanText rest).map fun (spelt, rest) => (c :: spelt, rest)
  | [] => none

/-- Digits, of which there must be one. -/
def scanDigits (cs : List Char) : Option (List Char × List Char) :=
  let digits := cs.takeWhile Char.isDigit
  if digits.isEmpty then none else some (digits, cs.dropWhile Char.isDigit)

/-- The part of a number before point and exponent: zero, or digits that start with another. -/
def scanWhole (cs : List Char) : Option (List Char × List Char) :=
  match cs with
  | '0' :: rest => if rest.head?.any Char.isDigit then none else some (['0'], rest)
  | cs => scanDigits cs

/-- A point with digits behind it, or nothing. -/
def scanFraction (cs : List Char) : Option (List Char × List Char) :=
  match cs with
  | '.' :: rest => (scanDigits rest).map fun (digits, rest) => ('.' :: digits, rest)
  | cs => some ([], cs)

/-- An exponent with an optional sign, or nothing. -/
def scanExponent (cs : List Char) : Option (List Char × List Char) :=
  match cs with
  | c :: rest =>
    if c = 'e' ∨ c = 'E' then
      match rest with
      | sign :: rest' =>
        if sign = '+' ∨ sign = '-' then
          (scanDigits rest').map fun (digits, rest) => (c :: sign :: digits, rest)
        else (scanDigits rest).map fun (digits, rest) => (c :: digits, rest)
      | [] => none
    else some ([], c :: rest)
  | [] => some ([], [])

/-- The spelling of a number. -/
def scanNumber (cs : List Char) : Option (List Char × List Char) := do
  let (sign, cs) := match cs with
    | '-' :: rest => (['-'], rest)
    | cs => ([], cs)
  let (whole, cs) ← scanWhole cs
  let (fraction, cs) ← scanFraction cs
  let (exponent, cs) ← scanExponent cs
  return (sign ++ whole ++ fraction ++ exponent, cs)

/-- What follows a word, if the text starts with it. -/
def afterWord (word : List Char) (cs : List Char) : Option (List Char) :=
  if word.isPrefixOf cs then some (cs.drop word.length) else none

/-- A key with its colon, after white space. -/
def scanKey (cs : List Char) : Option (List Char × List Char) :=
  match skipSpace cs with
  | '"' :: rest => do
    let (key, cs) ← scanText rest
    match skipSpace cs with
    | ':' :: rest => return (key, rest)
    | _ => none
  | _ => none

mutual

/-- A document after white space. -/
def readValue : Nat → List Char → Option (Json × List Char)
  | 0, _ => none
  | fuel + 1, cs =>
    match skipSpace cs with
    | 'n' :: rest => (afterWord ['u', 'l', 'l'] rest).map fun cs => (.null, cs)
    | 't' :: rest => (afterWord ['r', 'u', 'e'] rest).map fun cs => (.bool true, cs)
    | 'f' :: rest => (afterWord ['a', 'l', 's', 'e'] rest).map fun cs => (.bool false, cs)
    | '"' :: rest => (scanText rest).map fun (spelt, cs) => (.text (String.ofList spelt), cs)
    | '[' :: rest =>
      match skipSpace rest with
      | ']' :: rest => some (.array [], rest)
      | rest => (readItems fuel rest).map fun (items, cs) => (.array items, cs)
    | '\x7b' :: rest =>
      match skipSpace rest with
      | '\x7d' :: rest => some (.object [], rest)
      | rest => (readEntries fuel rest).map fun (entries, cs) => (.object entries, cs)
    | cs => (scanNumber cs).map fun (spelt, cs) => (.number (String.ofList spelt), cs)

/-- Items up to the closing bracket; there is at least one. -/
def readItems : Nat → List Char → Option (List Json × List Char)
  | 0, _ => none
  | fuel + 1, cs => do
    let (item, cs) ← readValue fuel cs
    match skipSpace cs with
    | ',' :: rest => do
      let (items, cs) ← readItems fuel rest
      return (item :: items, cs)
    | ']' :: rest => return ([item], rest)
    | _ => none

/-- Entries up to the closing brace; there is at least one. -/
def readEntries : Nat → List Char → Option (List (String × Json) × List Char)
  | 0, _ => none
  | fuel + 1, cs => do
    let (key, cs) ← scanKey cs
    let (value, cs) ← readValue fuel cs
    match skipSpace cs with
    | ',' :: rest => do
      let (entries, cs) ← readEntries fuel rest
      return ((String.ofList key, value) :: entries, cs)
    | '\x7d' :: rest => return ([(String.ofList key, value)], rest)
    | _ => none

end

/-- The document that a text spells. Every two steps of the reader take at least one
character, so twice the length of the text is enough of them. -/
def ofChars? (cs : List Char) : Option Json := do
  let (json, rest) ← readValue (2 * cs.length + 2) cs
  if (skipSpace rest).isEmpty then some json else none

def parse? (text : String) : Option Json := ofChars? text.toList

end Json

end TypedCql
