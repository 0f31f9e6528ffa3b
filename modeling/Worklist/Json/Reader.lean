import Worklist.Json.Number

/-!
# Reading JSON

A reader of strict JSON texts: no trailing data, no leading zeros, no comments.  A text that is
not well formed has no value at all.  The reader goes over the characters and hands on what is
left; its fuel is the length of the text, which no nesting or sequence can exceed.

Values that are well formed but denote nothing are `Json.unreadable`: strings with half of a
surrogate pair, numbers out of range, containers below depth `depthLimit`, and objects with such a
string among their keys.
-/

namespace Worklist.Json

/-- The deepest level at which a container can still be read. -/
def depthLimit : Nat := 127

/-- Drops the blanks that may stand between tokens. -/
def skipSpace (cs : List Char) : List Char :=
  cs.dropWhile fun c => c == ' ' || c == '\n' || c == '\t' || c == '\r'

/-! ## Strings -/

/-- The value of a hexadecimal digit. -/
def hexDigit? (c : Char) : Option Nat :=
  if '0' ≤ c ∧ c ≤ '9' then some (c.toNat - '0'.toNat)
  else if 'a' ≤ c ∧ c ≤ 'f' then some (c.toNat - 'a'.toNat + 10)
  else if 'A' ≤ c ∧ c ≤ 'F' then some (c.toNat - 'A'.toNat + 10)
  else none

/-- The value of four hexadecimal digits. -/
def hexUnit? (a b c d : Char) : Option Nat := do
  return 4096 * (← hexDigit? a) + 256 * (← hexDigit? b) + 16 * (← hexDigit? c) + (← hexDigit? d)

/-- The character that a one-letter escape stands for. -/
def shortEscape? : Char → Option Char
  | '"' => some '"'
  | '\\' => some '\\'
  | '/' => some '/'
  | 'b' => some '\x08'
  | 'f' => some '\x0c'
  | 'n' => some '\n'
  | 'r' => some '\r'
  | 't' => some '\t'
  | _ => none

/-- The rest of a string after its opening quotation mark, as code points and surrogate halves. -/
def readUnits? : List Char → Option (List Nat × List Char)
  | [] => none
  | '"' :: cs => some ([], cs)
  | '\\' :: 'u' :: a :: b :: c :: d :: cs => do
    let unit ← hexUnit? a b c d
    let (units, cs) ← readUnits? cs
    return (unit :: units, cs)
  | '\\' :: e :: cs => do
    let c ← shortEscape? e
    let (units, cs) ← readUnits? cs
    return (c.toNat :: units, cs)
  | c :: cs =>
    if c.toNat < 32 ∨ c = '\\' then none
    else do
      let (units, cs) ← readUnits? cs
      return (c.toNat :: units, cs)

def isHighHalf (n : Nat) : Bool := 0xD800 ≤ n && n < 0xDC00

def isLowHalf (n : Nat) : Bool := 0xDC00 ≤ n && n < 0xE000

/-- Joins the two halves of surrogate pairs, which have to stand side by side. -/
def joinHalves? : List Nat → Option (List Char)
  | [] => some []
  | n :: ns =>
    if isHighHalf n then
      match ns with
      | low :: ns =>
        if isLowHalf low then
          (joinHalves? ns).map (Char.ofNat (0x10000 + (n - 0xD800) * 1024 + (low - 0xDC00)) :: ·)
        else none
      | [] => none
    else if isLowHalf n then none
    else (joinHalves? ns).map (Char.ofNat n :: ·)

/-- A string after its opening quotation mark: its text, or `none` inside when it denotes no
text. -/
def readString? (cs : List Char) : Option (Option String × List Char) :=
  (readUnits? cs).map fun (units, cs) => ((joinHalves? units).map String.ofList, cs)

/-! ## Numbers -/

/-- The digits at the front of a text. -/
def spanDigits : List Char → List Nat × List Char
  | [] => ([], [])
  | c :: cs =>
    if c.isDigit then
      let (digits, rest) := spanDigits cs
      ((c.toNat - '0'.toNat) :: digits, rest)
    else ([], c :: cs)

/-- The number that digits denote. -/
def ofDigits (ds : List Nat) : Nat := ds.foldl (fun n d => 10 * n + d) 0

/-- An optional fraction, which needs a digit. -/
def readFraction? : List Char → Option (Option (List Nat) × List Char)
  | '.' :: cs =>
    match spanDigits cs with
    | ([], _) => none
    | (digits, cs) => some (some digits, cs)
  | cs => some (none, cs)

/-- The digits of an exponent, of which there is at least one. -/
def readExponentDigits? (sign : Int) (cs : List Char) : Option (Option Int × List Char) :=
  match spanDigits cs with
  | ([], _) => none
  | (digits, cs) => some (some (sign * ofDigits digits), cs)

/-- An exponent after its letter. -/
def readExponentTail? : List Char → Option (Option Int × List Char)
  | '+' :: cs => readExponentDigits? 1 cs
  | '-' :: cs => readExponentDigits? (-1) cs
  | cs => readExponentDigits? 1 cs

/-- An optional exponent. -/
def readExponent? : List Char → Option (Option Int × List Char)
  | 'e' :: cs => readExponentTail? cs
  | 'E' :: cs => readExponentTail? cs
  | cs => some (none, cs)

/-- A number without its sign.  Its integral part has no leading zero. -/
def readUnsigned? (isNegative : Bool) (cs : List Char) : Option (Json × List Char) := do
  let (integral, cs) := spanDigits cs
  match integral with
  | [] => none
  | 0 :: _ :: _ => none
  | integral =>
    let (fraction, cs) ← readFraction? cs
    let (exponent, cs) ← readExponent? cs
    return (NumberLiteral.value { isNegative, integral, fraction, exponent }, cs)

/-- A number. -/
def readNumber? : List Char → Option (Json × List Char)
  | '-' :: cs => readUnsigned? true cs
  | cs => readUnsigned? false cs

/-! ## Values -/

/-- A container, unless it lies too deep. -/
def contained (depth : Nat) (j : Json) : Json := if depth < depthLimit then j else unreadable

/-- An object, unless one of its keys denotes no text. -/
def ofMembers (members : List (Option String × Json)) : Json :=
  match members.mapM fun (key, value) => key.map (·, value) with
  | some members => object members
  | none => unreadable

mutual

/-- A value at the front of a text, inside `depth` containers. -/
def readValue? : Nat → Nat → List Char → Option (Json × List Char)
  | 0, _, _ => none
  | fuel + 1, depth, cs =>
    match skipSpace cs with
    | 'n' :: 'u' :: 'l' :: 'l' :: cs => some (null, cs)
    | 't' :: 'r' :: 'u' :: 'e' :: cs => some (bool true, cs)
    | 'f' :: 'a' :: 'l' :: 's' :: 'e' :: cs => some (bool false, cs)
    | '"' :: cs => (readString? cs).map fun (s, cs) => ((s.map string).getD unreadable, cs)
    | '[' :: cs =>
      match skipSpace cs with
      | ']' :: cs => some (contained depth (array []), cs)
      | cs => (readItems? fuel (depth + 1) cs).map fun (items, cs) =>
          (contained depth (array items), cs)
    | '\x7b' :: cs =>
      match skipSpace cs with
      | '\x7d' :: cs => some (contained depth (object []), cs)
      | cs => (readMembers? fuel (depth + 1) cs).map fun (members, cs) =>
          (contained depth (ofMembers members), cs)
    | cs => readNumber? cs

/-- The items of an array up to its closing bracket. -/
def readItems? : Nat → Nat → List Char → Option (List Json × List Char)
  | 0, _, _ => none
  | fuel + 1, depth, cs => do
    let (item, cs) ← readValue? fuel depth cs
    match skipSpace cs with
    | ',' :: cs =>
      let (items, cs) ← readItems? fuel depth cs
      return (item :: items, cs)
    | ']' :: cs => return ([item], cs)
    | _ => none

/-- The members of an object up to its closing brace. -/
def readMembers? : Nat → Nat → List Char → Option (List (Option String × Json) × List Char)
  | 0, _, _ => none
  | fuel + 1, depth, cs => do
    match skipSpace cs with
    | '"' :: cs =>
      let (key, cs) ← readString? cs
      match skipSpace cs with
      | ':' :: cs =>
        let (value, cs) ← readValue? fuel depth cs
        match skipSpace cs with
        | ',' :: cs =>
          let (members, cs) ← readMembers? fuel depth cs
          return ((key, value) :: members, cs)
        | '\x7d' :: cs => return ([(key, value)], cs)
        | _ => none
      | _ => none
    | _ => none

end

/-- The value of a whole text. -/
def ofText? (s : String) : Option Json :=
  let cs := s.toList
  match readValue? (cs.length + 1) 0 cs with
  | some (j, rest) => if (skipSpace rest).isEmpty then some j else none
  | none => none

end Worklist.Json
