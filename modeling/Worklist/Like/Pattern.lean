import Worklist.Text.Fold

/-!
# LIKE patterns

A pattern is read from left to right into items.  The escape character makes the next character
literal, and at the end of the pattern it stands for itself; it is recognised before the
wildcards, so it may be one of them.  Otherwise `%` is any run of characters, `_` is exactly one
character, and every other character is itself.

`Pattern.accepts` tells for every suffix of the value whether the items accept it, from the last
item to the first, so the work is the product of the two lengths.
-/

namespace Worklist

namespace Like

/-- One item of a pattern. -/
inductive Item where
  | literal (c : Char)
  | one
  | many
  deriving DecidableEq

/-- The items of a pattern text. -/
def items (escape : Char) : List Char → List Item
  | [] => []
  | c :: cs =>
    if c = escape then
      match cs with
      | [] => [.literal escape]
      | d :: cs => .literal d :: items escape cs
    else if c = '%' then .many :: items escape cs
    else if c = '_' then .one :: items escape cs
    else .literal c :: items escape cs

/-- A pattern that is ready to be matched. -/
structure Pattern where
  ignoreCase : Bool
  items : List Item
  deriving DecidableEq

/-- The form in which characters are compared. -/
def normal (ignoreCase : Bool) (c : Char) : Char := if ignoreCase then Text.fold c else c

/-- An item whose literal is in the form for comparison. -/
def Item.normal (ignoreCase : Bool) : Item → Item
  | .literal c => .literal (Like.normal ignoreCase c)
  | item => item

/-- Reads a pattern text. -/
def Pattern.ofText (ignoreCase : Bool) (escape : Char) (text : String) : Pattern :=
  { ignoreCase, items := (Like.items escape text.toList).map (Item.normal ignoreCase) }

/-! ## Matching -/

/-- The empty list of items accepts the empty suffix alone. -/
def acceptEnd : List Char → List Bool
  | [] => [true]
  | _ :: cs => false :: acceptEnd cs

/-- An item for one character accepts a suffix when it accepts the first character and the other
items accept the rest. -/
def acceptOne (test : Char → Bool) : List Char → List Bool → List Bool
  | c :: cs, _ :: next => (test c && next.headD false) :: acceptOne test cs next
  | _, _ => [false]

/-- A run of characters accepts a suffix when the other items accept some suffix of it. -/
def acceptMany : List Bool → List Bool
  | [] => []
  | here :: next =>
    let later := acceptMany next
    (here || later.headD false) :: later

/-- From the suffixes that the items after this one accept to those it accepts with them. -/
def Item.accept (value : List Char) (item : Item) (next : List Bool) : List Bool :=
  match item with
  | .literal p => acceptOne (· == p) value next
  | .one => acceptOne (fun _ => true) value next
  | .many => acceptMany next

/-- The suffixes of a value that items accept, the longest first. -/
def acceptedSuffixes (value : List Char) (items : List Item) : List Bool :=
  items.foldr (Item.accept value) (acceptEnd value)

/-- Whether a pattern accepts a whole value. -/
def Pattern.accepts (p : Pattern) (value : String) : Bool :=
  (acceptedSuffixes (value.toList.map (normal p.ignoreCase)) p.items).headD false

end Like

/-- Whether a value matches a pattern text. -/
def likeMatches (value pattern : String) (escape : Char) (ignoreCase : Bool) : Bool :=
  (Like.Pattern.ofText ignoreCase escape pattern).accepts value

end Worklist
