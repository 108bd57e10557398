/-!
# JSON documents

A document keeps numbers and text in the spelling they had, so that whoever reads a value
decides what it may be: a number that no type can hold, or an escape for half of a character,
does no harm where the value is skipped.
-/

namespace TypedCql

inductive Json
  | null
  | bool (b : Bool)
  /-- A number as it is spelt. -/
  | number (spelling : String)
  /-- Text as it is spelt between its quotes. -/
  | text (spelling : String)
  | array (items : List Json)
  /-- Keys, as they are spelt between their quotes, with their values. -/
  | object (entries : List (String × Json))
  deriving Repr

namespace Json

instance : Inhabited Json := ⟨.null⟩

/-! ## Spelling text -/

/-- A character between quotes. Quotes, backslashes and controls are escaped. -/
def spellChar (c : Char) : List Char :=
  match c with
  | '"' => ['\\', '"']
  | '\\' => ['\\', '\\']
  | '\n' => ['\\', 'n']
  | '\r' => ['\\', 'r']
  | '\t' => ['\\', 't']
  | '\x08' => ['\\', 'b']
  | '\x0c' => ['\\', 'f']
  | c =>
    if c.toNat < 0x20 then
      ['\\', 'u', '0', '0', Nat.digitChar (c.toNat / 16), Nat.digitChar (c.toNat % 16)]
    else [c]

def spell (text : String) : String := String.ofList (text.toList.flatMap spellChar)

def hexValue? (c : Char) : Option Nat :=
  if '0' ≤ c ∧ c ≤ '9' then some (c.toNat - '0'.toNat)
  else if 'a' ≤ c ∧ c ≤ 'f' then some (c.toNat - 'a'.toNat + 10)
  else if 'A' ≤ c ∧ c ≤ 'F' then some (c.toNat - 'A'.toNat + 10)
  else none

/-- The number spelt by four hexadecimal digits. -/
def unit? (a b c d : Char) : Option Nat := do
  let high := (← hexValue? a) * 16 + (← hexValue? b)
  let low := (← hexValue? c) * 16 + (← hexValue? d)
  return high * 256 + low

/-- The character behind a one-letter escape. -/
def escaped? : Char → Option Char
  | '"' => some '"'
  | '\\' => some '\\'
  | '/' => some '/'
  | 'b' => some '\x08'
  | 'f' => some '\x0c'
  | 'n' => some '\n'
  | 'r' => some '\r'
  | 't' => some '\t'
  | _ => none

/-- The characters that a spelling stands for. Characters beyond the first 65536 are escaped
as a pair of units, a high and a low one; neither may stand alone. -/
def readSpelling : List Char → Option (List Char)
  | '\\' :: 'u' :: a :: b :: c :: d :: rest =>
    match unit? a b c d with
    | none => none
    | some high =>
      if 0xDC00 ≤ high ∧ high ≤ 0xDFFF then none
      else if 0xD800 ≤ high ∧ high ≤ 0xDBFF then
        match rest with
        | '\\' :: 'u' :: a :: b :: c :: d :: rest =>
          match unit? a b c d with
          | none => none
          | some low =>
            if 0xDC00 ≤ low ∧ low ≤ 0xDFFF then
              (readSpelling rest).map
                (Char.ofNat ((high - 0xD800) * 0x400 + (low - 0xDC00) + 0x10000) :: ·)
            else none
        | _ => none
      else (readSpelling rest).map (Char.ofNat high :: ·)
  | '\\' :: c :: rest =>
    match escaped? c with
    | some c => (readSpelling rest).map (c :: ·)
    | none => none
  | c :: rest => (readSpelling rest).map (c :: ·)
  | [] => some []

/-- The text behind a spelling, if it stands for whole characters. -/
def unspell? (spelling : String) : Option String :=
  (readSpelling spelling.toList).map String.ofList

/-- The document that spells a text. -/
def ofText (text : String) : Json := .text (spell text)

def ofInt (n : Int) : Json := .number (toString n)

/-- An object with these keys. -/
def ofFields (fields : List (String × Json)) : Json :=
  .object (fields.map fun (key, value) => (spell key, value))

/-! ## Writing -/

mutual

/-- The document without any white space. -/
def render : Json → String
  | .null => "null"
  | .bool b => if b then "true" else "false"
  | .number spelling => spelling
  | .text spelling => "\"" ++ spelling ++ "\""
  | .array items => "[" ++ ",".intercalate (renderItems items) ++ "]"
  | .object entries => "\x7b" ++ ",".intercalate (renderEntries entries) ++ "\x7d"

def renderItems : List Json → List String
  | [] => []
  | item :: rest => render item :: renderItems rest

def renderEntries : List (String × Json) → List String
  | [] => []
  | (key, value) :: rest => ("\"" ++ key ++ "\":" ++ render value) :: renderEntries rest

end

end Json

end TypedCql
