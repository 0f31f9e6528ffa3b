import Worklist.Instant
import Worklist.Instant.Calendar
import Worklist.Power
import Worklist.Text.CharSet

/-!
# Dates as text

Reading and writing instants in the notation of RFC 3339.

* The writers give the instant in UTC.  The fraction is left out when it is zero and otherwise has
  three, six or nine digits; a year outside 0 to 9999 is written with a sign.
* The reader is lenient: blanks may stand before every field, a field may have fewer digits than
  usual, a signed year may have more, and the zone may be `UTC`, `Z` or an offset of at least one
  minute field.  The date has to exist, and second 60 is a leap second.
-/

namespace Worklist.Instant

/-! ## Writing -/

/-- Decimal digits, padded with zeros to a width. -/
def padded (width n : Nat) : String :=
  let digits := Nat.toDigits 10 n
  String.ofList (List.replicate (width - digits.length) '0' ++ digits)

/-- A year of four digits, or a signed year outside 0 to 9999. -/
def yearText (year : Int) : String :=
  if 0 ≤ year && year ≤ 9999 then padded 4 year.toNat
  else (if year < 0 then "-" else "+") ++ padded 4 year.natAbs

/-- The fraction of a second with the fewest digits among none, three, six and nine. -/
def fractionText (nanos : Nat) : String :=
  if nanos = 0 then ""
  else if nanos % 1000000 = 0 then "." ++ padded 3 (nanos / 1000000)
  else if nanos % 1000 = 0 then "." ++ padded 6 (nanos / 1000)
  else "." ++ padded 9 nanos

/-- Date and time in UTC without a zone. -/
def plainText (t : Instant) : String :=
  let date := CalendarDate.ofDays (t.seconds / 86400)
  let ofDay := (t.seconds % 86400).toNat
  let leap := t.nanos / 1000000000
  yearText date.year ++ "-" ++ padded 2 date.month ++ "-" ++ padded 2 date.day ++ "T" ++
    padded 2 (ofDay / 3600) ++ ":" ++ padded 2 (ofDay / 60 % 60) ++ ":" ++
    padded 2 (ofDay % 60 + leap) ++ fractionText (t.nanos % 1000000000)

/-- The form with the zone `Z`. -/
def zuluText (t : Instant) : String := t.plainText ++ "Z"

/-- The form with a zero offset. -/
def offsetText (t : Instant) : String := t.plainText ++ "+00:00"

/-! ## Reading -/

/-- The value of a decimal digit. -/
def digit? (c : Char) : Option Nat :=
  if c.isDigit then some (c.toNat - '0'.toNat) else none

/-- Up to `width` further digits after a number already read. -/
def readDigits : Nat → Nat → List Char → Nat × List Char
  | width + 1, n, c :: cs =>
    match digit? c with
    | some d => readDigits width (10 * n + d) cs
    | none => (n, c :: cs)
  | _, n, cs => (n, cs)

/-- A number of at least one and at most `width` digits. -/
def readNumber? (width : Nat) (cs : List Char) : Option (Nat × List Char) :=
  match cs with
  | c :: _ => if c.isDigit then some (readDigits width 0 cs) else none
  | [] => none

/-- A field of at most two digits after blanks. -/
def readField? (cs : List Char) : Option (Nat × List Char) := readNumber? 2 (Text.skipBlanks cs)

/-- A mark that has to come next, after blanks. -/
def readMark? (mark : Char) (cs : List Char) : Option (List Char) :=
  match Text.skipBlanks cs with
  | c :: rest => if c = mark then some rest else none
  | [] => none

/-- A year: four digits at most, or any number of digits after a sign. -/
def readYear? (cs : List Char) : Option (Int × List Char) :=
  match Text.skipBlanks cs with
  | '-' :: rest => (readNumber? rest.length rest).map fun (n, rest) => (-(n : Int), rest)
  | '+' :: rest => (readNumber? rest.length rest).map fun (n, rest) => ((n : Int), rest)
  | cs => (readNumber? 4 cs).map fun (n, rest) => ((n : Int), rest)

/-- The letter or blank between date and time. -/
def readSeparator? : List Char → Option (List Char)
  | 't' :: rest => some rest
  | 'T' :: rest => some rest
  | ' ' :: rest => some rest
  | _ => none

/-- An optional fraction in nanoseconds, of which digits past the ninth are dropped. -/
def readFraction? : List Char → Option (Nat × List Char)
  | '.' :: cs =>
    (readNumber? 9 cs).map fun (n, rest) =>
      (n * tenPow (9 - (cs.length - rest.length)), rest.dropWhile Char.isDigit)
  | cs => some (0, cs)

/-- Exactly two digits. -/
def readPair? : List Char → Option (Nat × List Char)
  | a :: b :: rest => do return (10 * (← digit? a) + (← digit? b), rest)
  | _ => none

/-- The sign of an offset, which may be a typographic minus. -/
def readSign? : List Char → Option (Int × List Char)
  | '+' :: rest => some (1, rest)
  | '-' :: rest => some (-1, rest)
  | '\u2212' :: rest => some (-1, rest)
  | _ => none

/-- Hours and minutes of an offset, in seconds and below one day. -/
def readOffset? (cs : List Char) : Option (Int × List Char) := do
  let (sign, cs) ← readSign? cs
  let (hours, cs) ← readPair? cs
  let (minutes, cs) ← readPair? (cs.dropWhile fun c => c == ':' || Text.isBlank c)
  if minutes < 60 ∧ hours < 24 then return (sign * (hours * 3600 + minutes * 60), cs) else none

/-- The zone as seconds east of UTC. -/
def readZone? (cs : List Char) : Option (Int × List Char) :=
  match cs with
  | 'Z' :: rest => some (0, rest)
  | 'z' :: rest => some (0, rest)
  | u :: t :: c :: rest =>
    if [u, t, c].map Char.toUpper = ['U', 'T', 'C'] then some (0, rest) else readOffset? cs
  | _ => readOffset? cs

/-- The instant of a local date and time, if both exist and the instant is in range. -/
def ofLocal? (date : CalendarDate) (hour minute second nanos : Nat) (offset : Int) :
    Option Instant :=
  if date.isValid && hour < 24 && minute < 60 && second ≤ 60 then
    let ofDay := hour * 3600 + minute * 60 + min second 59
    let seconds := date.toDays * 86400 + ofDay - offset
    let leap := if second = 60 then 1000000000 else 0
    if CalendarDate.isYearInRange (CalendarDate.ofDays (seconds / 86400)).year then
      some ⟨seconds, nanos + leap⟩
    else none
  else none

/-- The instant that a text denotes. -/
def ofText? (s : String) : Option Instant := do
  let (year, cs) ← readYear? s.toList
  let cs ← readMark? '-' cs
  let (month, cs) ← readField? cs
  let cs ← readMark? '-' cs
  let (day, cs) ← readField? cs
  let cs ← readSeparator? cs
  let (hour, cs) ← readField? cs
  let cs ← readMark? ':' cs
  let (minute, cs) ← readField? cs
  let cs ← readMark? ':' cs
  let (second, cs) ← readField? cs
  let (nanos, cs) ← readFraction? cs
  let (offset, cs) ← readZone? (Text.skipBlanks cs)
  if (Text.skipBlanks cs).isEmpty then ofLocal? ⟨year, month, day⟩ hour minute second nanos offset
  else none

end Worklist.Instant
