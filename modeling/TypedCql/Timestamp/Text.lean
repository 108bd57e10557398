import TypedCql.Text.Blank
import TypedCql.Timestamp.Basic
import TypedCql.Timestamp.Calendar

/-!
# Instants as text

An instant is written as date and time of day in universal time,
`2023-11-14T22:13:20.123Z`, with as many groups of three fraction digits as it needs. Reading
is more generous: numbers may be short, a blank may stand for the `T`, blanks are skipped
before numbers and around marks, and any offset from universal time is allowed.
-/

namespace TypedCql

namespace Timestamp

/-- The number with zeros in front of it up to a width. -/
def padded (width n : Nat) : String :=
  let digits := Nat.toDigits 10 n
  String.ofList (List.replicate (width - digits.length) '0' ++ digits)

/-- Four digits, or a sign and at least four digits outside the years 0 to 9999. -/
def yearText (year : Int) : String :=
  if 0 ≤ year ∧ year ≤ 9999 then padded 4 year.toNat
  else (if year < 0 then "-" else "+") ++ padded 4 year.natAbs

/-- The fraction of a second, in milliseconds, microseconds or nanoseconds. -/
def fractionText (nanos : Nat) : String :=
  if nanos = 0 then ""
  else if nanos % 1000000 = 0 then "." ++ padded 3 (nanos / 1000000)
  else if nanos % 1000 = 0 then "." ++ padded 6 (nanos / 1000)
  else "." ++ padded 9 nanos

/-- The instant as date and time. A leap second counts as the sixtieth of its minute. -/
def text (t : Timestamp) : String :=
  let date := CalendarDate.ofDays (t.seconds / 86400)
  let time := (t.seconds % 86400).toNat
  let leap := t.nanos / 1000000000
  yearText date.year ++ "-" ++ padded 2 date.month ++ "-" ++ padded 2 date.day ++ "T"
    ++ padded 2 (time / 3600) ++ ":" ++ padded 2 (time / 60 % 60) ++ ":"
    ++ padded 2 (time % 60 + leap) ++ fractionText (t.nanos % 1000000000) ++ "Z"

/-! ## Reading -/

/-- The value of a list of decimal digits. -/
def digitsValue (digits : List Char) : Nat :=
  digits.foldl (fun n c => n * 10 + (c.toNat - '0'.toNat)) 0

/-- A number of one to `most` digits, after blanks. -/
def readNumber (most : Nat) (cs : List Char) : Option (Nat × List Char) :=
  let cs := Text.trimStart cs
  let digits := (cs.take most).takeWhile Char.isDigit
  if digits.isEmpty then none else some (digitsValue digits, cs.drop digits.length)

/-- A year: up to four digits, or a sign and any number of digits. -/
def readYear (cs : List Char) : Option (Int × List Char) :=
  match Text.trimStart cs with
  | '-' :: rest => do
    let digits := rest.takeWhile Char.isDigit
    if digits.isEmpty then none else some (-(digitsValue digits : Int), rest.drop digits.length)
  | '+' :: rest => do
    let digits := rest.takeWhile Char.isDigit
    if digits.isEmpty then none else some (digitsValue digits, rest.drop digits.length)
  | rest => (readNumber 4 rest).map fun (n, rest) => (n, rest)

/-- A mark, after blanks. -/
def readMark (mark : Char) (cs : List Char) : Option (List Char) :=
  match Text.trimStart cs with
  | c :: rest => if c = mark then some rest else none
  | [] => none

/-- The nanoseconds that follow a point; digits beyond the ninth are dropped. -/
def readFraction (cs : List Char) : Option (Nat × List Char) :=
  match cs with
  | '.' :: rest =>
    let digits := rest.takeWhile Char.isDigit
    let kept := digits.take 9
    if digits.isEmpty then none
    else some (digitsValue kept * Nat.pow 10 (9 - kept.length), rest.drop digits.length)
  | _ => some (0, cs)

/-- The seconds by which the local time is ahead of universal time. -/
def readOffset (cs : List Char) : Option (Int × List Char) :=
  match cs with
  | 'Z' :: rest | 'z' :: rest => some (0, rest)
  | sign :: h :: h' :: rest =>
    if (sign = '+' ∨ sign = '-' ∨ sign = '\u2212') ∧ h.isDigit ∧ h'.isDigit then
      let hours := digitsValue [h, h']
      let signed (minutes : Nat) : Int :=
        let seconds : Int := hours * 3600 + minutes * 60
        if sign = '+' then seconds else -seconds
      match rest.dropWhile fun c => c = ':' ∨ Text.isBlank c with
      | [] => some (signed 0, [])
      | m :: m' :: rest =>
        if '0' ≤ m ∧ m ≤ '5' ∧ m'.isDigit then some (signed (digitsValue [m, m']), rest)
        else none
      | [_] => none
    else none
  | _ => none

/-- Universal time by name, or an offset. -/
def readZone (cs : List Char) : Option (Int × List Char) :=
  match cs with
  | u :: t :: c :: rest =>
    if u.toUpper = 'U' ∧ t.toUpper = 'T' ∧ c.toUpper = 'C' then some (0, rest)
    else readOffset cs
  | _ => readOffset cs

/-- The years that instants cover. -/
def covers (year : Int) : Bool := -262143 ≤ year ∧ year ≤ 262142

/-- The instant that a text of date, time and offset names. -/
def ofChars? (cs : List Char) : Option Timestamp := do
  let (year, cs) ← readYear cs
  let cs ← readMark '-' cs
  let (month, cs) ← readNumber 2 cs
  let cs ← readMark '-' cs
  let (day, cs) ← readNumber 2 cs
  let cs ←
    match cs with
    | c :: rest => if c = 'T' ∨ c = 't' ∨ c = ' ' then some rest else none
    | [] => none
  let (hour, cs) ← readNumber 2 cs
  let cs ← readMark ':' cs
  let (minute, cs) ← readNumber 2 cs
  let cs ← readMark ':' cs
  let (second, cs) ← readNumber 2 cs
  let (nanos, cs) ← readFraction cs
  let (offset, cs) ← readZone (Text.trimStart cs)
  let date : CalendarDate := ⟨year, month, day⟩
  if (Text.trimStart cs).isEmpty ∧ covers year ∧ date.isValid ∧ hour ≤ 23 ∧ minute ≤ 59
      ∧ second ≤ 60 ∧ offset.natAbs < 86400 then
    let leap := if second = 60 then 1 else 0
    let timeOfDay := hour * 3600 + minute * 60 + (second - leap)
    let seconds := date.toDays * 86400 + timeOfDay - offset
    if covers (CalendarDate.ofDays (seconds / 86400)).year then
      some ⟨seconds, nanos + leap * 1000000000⟩
    else none
  else none

def ofText? (text : String) : Option Timestamp := ofChars? text.toList

end Timestamp

end TypedCql
