import Worklist.Binary64.Shortest
import Worklist.Json

/-!
# Writing JSON

The compact text of a value.  A string escapes the quotation mark, the backslash and the control
characters; a decimal has a point or an exponent so that it reads back as a decimal; a decimal that
is no number is written `null`.
-/

namespace Worklist.Json

/-- Four hexadecimal digits. -/
def fourHex (n : Nat) : List Char :=
  [n / 4096 % 16, n / 256 % 16, n / 16 % 16, n % 16].map Nat.digitChar

/-- One character inside a string. -/
def escaped (c : Char) : List Char :=
  match c with
  | '"' => ['\\', '"']
  | '\\' => ['\\', '\\']
  | '\x08' => ['\\', 'b']
  | '\x0c' => ['\\', 'f']
  | '\n' => ['\\', 'n']
  | '\r' => ['\\', 'r']
  | '\t' => ['\\', 't']
  | c => if c.toNat < 32 then '\\' :: 'u' :: fourHex c.toNat else [c]

/-- A string between quotation marks. -/
def writeString (s : String) : List Char :=
  '"' :: s.toList.flatMap escaped ++ ['"']

/-- The digits of an integer with its sign. -/
def writeInteger (n : Int) : List Char :=
  if n < 0 then '-' :: Nat.toDigits 10 n.natAbs else Nat.toDigits 10 n.natAbs

/-- The digits behind the point; without digits there is no point. -/
def writeFraction : List Char → List Char
  | [] => []
  | digits => '.' :: digits

/-- Scientific notation of `digits * 10 ^ exponent`, with one digit in front of the point. -/
def scientific (digits : Nat) (exponent : Int) : List Char :=
  let ds := Binary64.digitsOf digits
  ds.take 1 ++ (writeFraction (ds.drop 1) ++ 'e' :: writeInteger (exponent + ds.length - 1))

/-- The shortest text of a decimal, which has a point or an exponent.  The notation is scientific if
more than sixteen digits would stand in front of the point, or five zeros right behind it. -/
def writeDecimal (x : Binary64) : List Char :=
  if x.isFinite then
    let (digits, exponent) := x.shortest
    let point := exponent + (Binary64.digitsOf digits).length
    let sign := if x.isNegative then ['-'] else []
    if -5 < point ∧ point ≤ 16 then
      sign ++ (Binary64.positional digits exponent ++ if 0 ≤ exponent then ['.', '0'] else [])
    else sign ++ scientific digits exponent
  else ['n', 'u', 'l', 'l']

mutual

/-- The text of a value. -/
def write : Json → List Char
  | null => ['n', 'u', 'l', 'l']
  | bool true => ['t', 'r', 'u', 'e']
  | bool false => ['f', 'a', 'l', 's', 'e']
  | integer n => writeInteger n
  | decimal x => writeDecimal x
  | string s => writeString s
  | array [] => ['[', ']']
  | array (item :: items) => '[' :: (write item ++ writeItems items ++ [']'])
  | object [] => ['\x7b', '\x7d']
  | object ((key, value) :: members) =>
    '\x7b' :: (writeString key ++ ':' :: write value ++ writeMembers members ++ ['\x7d'])
  | unreadable => ['n', 'u', 'l', 'l']

/-- The items after the first, each behind a comma. -/
def writeItems : List Json → List Char
  | [] => []
  | item :: items => ',' :: (write item ++ writeItems items)

/-- The members after the first, each behind a comma. -/
def writeMembers : List (String × Json) → List Char
  | [] => []
  | (key, value) :: members =>
    ',' :: (writeString key ++ ':' :: write value ++ writeMembers members)

end

/-- The compact text of a value. -/
def toText (j : Json) : String := String.ofList j.write

end Worklist.Json
