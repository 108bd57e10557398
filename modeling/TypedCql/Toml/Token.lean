import TypedCql.Codec.Document

/-!
# The tokens of TOML

Every reader takes its token off the front of the text and gives back the rest; it has no
result where the text does not start with such a token.
-/

namespace TypedCql

namespace Toml

abbrev Reader (α : Type) := List Char → Option (α × List Char)

/-- Blanks and tabs. -/
def isSpace (c : Char) : Bool := c = ' ' ∨ c = '\t'

def skipSpace (cs : List Char) : List Char := cs.dropWhile isSpace

/-- Whether a character may stand in comments and texts as it is. -/
def isPrintable (c : Char) : Bool :=
  c = '\t' ∨ (0x20 ≤ c.toNat ∧ c.toNat ≠ 0x7F)

/-- A line end, with or without a carriage return. -/
def lineEnd? : List Char → Option (List Char)
  | '\n' :: rest => some rest
  | '\r' :: '\n' :: rest => some rest
  | _ => none

/-- The text behind a comment, if there is one. -/
def skipComment (cs : List Char) : List Char :=
  match cs with
  | '#' :: rest => rest.dropWhile isPrintable
  | cs => cs

/-- The end of a line after white space and a comment; the end of the text is one, too. -/
def endOfLine? (cs : List Char) : Option (List Char) :=
  match skipComment (skipSpace cs) with
  | [] => some []
  | cs => lineEnd? cs

/-- The text after white space, comments and line ends, of which there can be no more than
`most`. -/
def skipLines : Nat → List Char → List Char
  | 0, cs => skipSpace cs
  | most + 1, cs =>
    let cs := skipSpace cs
    match lineEnd? (skipComment cs) with
    | some rest => skipLines most rest
    | none => cs

/-! ## Texts -/

/-- The number spelt by hexadecimal digits. -/
def hexNumber? (digits : List Char) : Option Nat :=
  digits.foldlM (fun n c =>
    if '0' ≤ c ∧ c ≤ '9' then some (n * 16 + (c.toNat - '0'.toNat))
    else if 'a' ≤ c ∧ c ≤ 'f' then some (n * 16 + (c.toNat - 'a'.toNat + 10))
    else if 'A' ≤ c ∧ c ≤ 'F' then some (n * 16 + (c.toNat - 'A'.toNat + 10))
    else none) 0

/-- A character by its code point, given in a number of digits. -/
def codePoint (width : Nat) : Reader Char := fun cs => do
  let digits := cs.take width
  if digits.length < width then none
  let n ← hexNumber? digits
  if n.isValidChar then some (Char.ofNat n, cs.drop width) else none

/-- The character behind a backslash. -/
def escape : Reader Char
  | '"' :: rest => some ('"', rest)
  | '\\' :: rest => some ('\\', rest)
  | 'b' :: rest => some ('\x08', rest)
  | 'f' :: rest => some ('\x0c', rest)
  | 'n' :: rest => some ('\n', rest)
  | 'r' :: rest => some ('\r', rest)
  | 't' :: rest => some ('\t', rest)
  | 'u' :: rest => codePoint 4 rest
  | 'U' :: rest => codePoint 8 rest
  | _ => none

/-- The text after white space and line ends. -/
def skipBlankLines : List Char → List Char
  | [] => []
  | '\r' :: '\n' :: rest => skipBlankLines rest
  | c :: rest => if isSpace c || c == '\n' then skipBlankLines rest else c :: rest

/-- White space and line ends after a backslash at the end of a line. -/
def skipFold (cs : List Char) : Option (List Char) :=
  (lineEnd? (skipSpace cs)).map skipBlankLines

/-- The quotes at the front, and what follows them. -/
def quoteRun (quote : Char) (cs : List Char) : Nat × List Char :=
  ((cs.takeWhile (· = quote)).length, cs.dropWhile (· = quote))

/-- A text in one line up to its closing quote. Only between double quotes are there escapes. -/
def lineText (quote : Char) : Nat → List Char → Option (List Char × List Char)
  | 0, _ => none
  | fuel + 1, cs =>
    match cs with
    | [] => none
    | c :: rest =>
      if c = quote then some ([], rest)
      else if c = '\\' ∧ quote = '"' then do
        let (c, rest) ← escape rest
        let (tail, rest) ← lineText quote fuel rest
        return (c :: tail, rest)
      else if isPrintable c then do
        let (tail, rest) ← lineText quote fuel rest
        return (c :: tail, rest)
      else none

/-- A text over several lines up to its three closing quotes, which up to two quotes of the
text itself may precede. A backslash at the end of a line joins it to the next visible
character. -/
def blockText (quote : Char) : Nat → List Char → Option (List Char × List Char)
  | 0, _ => none
  | fuel + 1, cs =>
    match cs with
    | [] => none
    | c :: rest =>
      if c = quote then
        let (count, after) := quoteRun quote cs
        if count < 3 then do
          let (tail, rest) ← blockText quote fuel after
          return (List.replicate count quote ++ tail, rest)
        else if count ≤ 5 then some (List.replicate (count - 3) quote, after)
        else none
      else if c = '\\' ∧ quote = '"' then
        match skipFold rest with
        | some rest => blockText quote fuel rest
        | none => do
          let (c, rest) ← escape rest
          let (tail, rest) ← blockText quote fuel rest
          return (c :: tail, rest)
      else
        match lineEnd? cs with
        | some rest => do
          let (tail, rest) ← blockText quote fuel rest
          return ('\n' :: tail, rest)
        | none =>
          if isPrintable c then do
            let (tail, rest) ← blockText quote fuel rest
            return (c :: tail, rest)
          else none

/-- A text between quotes of some kind. The line end right after three opening quotes does not
belong to it. -/
def quotedText (quote : Char) : Reader String := fun cs =>
  match quoteRun quote cs with
  | (0, _) => none
  | (1, _) => (lineText quote cs.length (cs.drop 1)).map fun (t, rest) => (String.ofList t, rest)
  | (2, rest) => some ("", rest)
  | (_, _) =>
    let body := cs.drop 3
    let body := (lineEnd? body).getD body
    (blockText quote cs.length body).map fun (t, rest) => (String.ofList t, rest)

/-! ## Keys -/

def isBareKeyChar (c : Char) : Bool := c.isAlphanum || c == '_' || c == '-'

/-- A key of one part. -/
def simpleKey : Reader String := fun cs =>
  match cs with
  | '"' :: rest =>
    (lineText '"' cs.length rest).map fun (t, rest) => (String.ofList t, rest)
  | '\'' :: rest =>
    (lineText '\'' cs.length rest).map fun (t, rest) => (String.ofList t, rest)
  | cs =>
    let key := cs.takeWhile isBareKeyChar
    if key.isEmpty then none else some (String.ofList key, cs.dropWhile isBareKeyChar)

/-- The parts of a key with points between them, at most `most` of them. -/
def keyParts : Nat → Reader (List String)
  | 0, _ => none
  | most + 1, cs => do
    let (key, rest) ← simpleKey (skipSpace cs)
    match skipSpace rest with
    | '.' :: rest => do
      let (keys, rest) ← keyParts most rest
      return (key :: keys, rest)
    | rest => return ([key], rest)

/-- How deep values and keys may be nested. -/
def depthLimit : Nat := 79

/-- A key with white space around it and its parts. -/
def key : Reader (List String) := keyParts depthLimit

/-! ## Numbers -/

/-- Digits with single underscores between them, given back without these. -/
def digitRun (isDigit : Char → Bool) : List Char → Option (List Char × List Char)
  | [] => none
  | c :: rest =>
    if !isDigit c then none
    else
      match rest with
      | '_' :: d :: rest' =>
        match digitRun isDigit (d :: rest') with
        | some (digits, rest) => some (c :: digits, rest)
        | none => none
      | rest =>
        match digitRun isDigit rest with
        | some (digits, rest) => some (c :: digits, rest)
        | none => some ([c], rest)

/-- The value of digits to a base. -/
def numberOf (base : Nat) (digits : List Char) : Nat :=
  digits.foldl (fun n c => n * base + (hexNumber? [c]).getD 0) 0

/-- Digits that do not start with a needless zero. -/
def plainDigits (cs : List Char) : Option (List Char × List Char) := do
  let (digits, rest) ← digitRun Char.isDigit cs
  match digits with
  | '0' :: _ :: _ => none
  | digits => return (digits, rest)

/-- A sign, if there is one. -/
def sign (cs : List Char) : Bool × List Char :=
  match cs with
  | '-' :: rest => (true, rest)
  | '+' :: rest => (false, rest)
  | cs => (false, cs)

/-- Digits to a base of their own, within 64 bits. -/
def baseNumber (base : Nat) (isDigit : Char → Bool) (cs : List Char) : Option (List Char) := do
  let (digits, rest) ← digitRun isDigit cs
  if numberOf base digits ≤ Int64.maxValue.toInt then some rest else none

def isHexDigit (c : Char) : Bool := (hexNumber? [c]).isSome

/-- What follows an integer. -/
def afterInteger? (cs : List Char) : Option (List Char) :=
  match cs with
  | '0' :: 'x' :: rest => baseNumber 16 isHexDigit rest
  | '0' :: 'o' :: rest => baseNumber 8 (fun c => '0' ≤ c ∧ c ≤ '7') rest
  | '0' :: 'b' :: rest => baseNumber 2 (fun c => c = '0' ∨ c = '1') rest
  | cs => do
    let (negative, cs) := sign cs
    let (digits, rest) ← plainDigits cs
    let n : Int := if negative then -numberOf 10 digits else numberOf 10 digits
    if Int64.minValue.toInt ≤ n ∧ n ≤ Int64.maxValue.toInt then some rest else none

/-- Whether the decimal `digits * 10 ^ exponent` is beyond the largest double. -/
def overflows (digits : List Char) (exponent : Int) : Bool :=
  let n := numberOf 10 digits
  let top : Int := (Nat.toDigits 10 n).length + exponent
  n ≠ 0 ∧ (310 < top ∨ (300 < top ∧
    let beyond := Nat.pow 2 1024 - Nat.pow 2 970
    decide (beyond * Nat.pow 10 (-exponent).toNat ≤ n * Nat.pow 10 exponent.toNat)))

/-- An exponent: its value and what follows it. -/
def exponentPart (cs : List Char) : Option (Int × List Char) :=
  match cs with
  | c :: rest =>
    if c = 'e' ∨ c = 'E' then do
      let (negative, rest) := sign rest
      let (digits, rest) ← digitRun Char.isDigit rest
      let n : Int := numberOf 10 digits
      return (if negative then -n else n, rest)
    else none
  | [] => none

/-- What follows a floating-point number: digits with a fraction, an exponent or both, or one of
the words for infinity and for no number. Positive numbers must not be too large. -/
def afterFloat? (cs : List Char) : Option (List Char) :=
  let (negative, unsigned) := sign cs
  match unsigned with
  | 'i' :: 'n' :: 'f' :: rest => some rest
  | 'n' :: 'a' :: 'n' :: rest => some rest
  | _ => do
    let (whole, rest) ← plainDigits unsigned
    let (fraction, rest, fractional) ←
      match rest with
      | '.' :: rest => (digitRun Char.isDigit rest).map fun (f, rest) => (f, rest, true)
      | rest => some ([], rest, false)
    let (exponent, rest, scaled) :=
      match exponentPart rest with
      | some (e, rest) => (e, rest, true)
      | none => (0, rest, false)
    if !fractional && !scaled then none
    else if !negative && overflows (whole ++ fraction) (exponent - fraction.length) then none
    else some rest

/-! ## Moments -/

/-- A number of exactly so many digits, within bounds. -/
def fixedNumber (width low high : Nat) : Reader Nat := fun cs =>
  let digits := cs.take width
  if digits.length = width ∧ digits.all Char.isDigit then
    let n := numberOf 10 digits
    if low ≤ n ∧ n ≤ high then some (n, cs.drop width) else none
  else none

/-- What follows a mark. -/
def after? (mark : Char) : List Char → Option (List Char)
  | c :: rest => if c = mark then some rest else none
  | [] => none

/-- What follows a date. -/
def afterDate? (cs : List Char) : Option (List Char) := do
  let (year, cs) ← fixedNumber 4 0 9999 cs
  let cs ← after? '-' cs
  let (month, cs) ← fixedNumber 2 1 12 cs
  let cs ← after? '-' cs
  let leap := year % 4 = 0 ∧ (year % 100 ≠ 0 ∨ year % 400 = 0)
  let last := match month with
    | 2 => if leap then 29 else 28
    | 4 | 6 | 9 | 11 => 30
    | _ => 31
  let (_, cs) ← fixedNumber 2 1 last cs
  return cs

/-- What follows a time of day. -/
def afterTime? (cs : List Char) : Option (List Char) := do
  let (_, cs) ← fixedNumber 2 0 23 cs
  let cs ← after? ':' cs
  let (_, cs) ← fixedNumber 2 0 59 cs
  let cs ← after? ':' cs
  let (_, cs) ← fixedNumber 2 0 60 cs
  match cs with
  | '.' :: rest =>
    if rest.head?.any Char.isDigit then some (rest.dropWhile Char.isDigit) else none
  | cs => some cs

/-- What follows an offset, which may be left out. -/
def afterOffset? (cs : List Char) : Option (List Char) :=
  match cs with
  | 'Z' :: rest | 'z' :: rest => some rest
  | c :: rest =>
    if c = '+' ∨ c = '-' then do
      let (_, rest) ← fixedNumber 2 0 23 rest
      let rest ← after? ':' rest
      let (_, rest) ← fixedNumber 2 0 59 rest
      return rest
    else some cs
  | [] => some []

/-- What follows a moment: a date, a time of day, or both with an offset. -/
def afterMoment? (cs : List Char) : Option (List Char) :=
  match afterDate? cs with
  | none => afterTime? cs
  | some (c :: rest) =>
    if c = 'T' ∨ c = 't' ∨ c = ' ' then
      match afterTime? rest with
      | some rest => afterOffset? rest
      | none => some (c :: rest)
    else some (c :: rest)
  | some [] => some []

end Toml

end TypedCql
