import Worklist.Binary64

/-!
# JSON values

The values that JSON texts denote.  Numbers are integers or binary64 numbers, and an object keeps
its members in the order of the text, repetitions included.

A text can hold values that are well formed and yet denote nothing: a string with half of a
surrogate pair, a number beyond the range of binary64, a container nested too deep.  They are
`unreadable`, which does no harm where the value is skipped.
-/

namespace Worklist

/-- A JSON value. -/
inductive Json where
  | null
  | bool (b : Bool)
  | integer (n : Int)
  | decimal (x : Binary64)
  | string (s : String)
  | array (items : List Json)
  | object (members : List (String × Json))
  | unreadable
  deriving Inhabited

namespace Json

mutual

/-- Whether no part of a value is unreadable. -/
def isReadable : Json → Bool
  | unreadable => false
  | array items => areReadable items
  | object members => areMembersReadable members
  | _ => true

/-- Whether no item holds an unreadable part. -/
def areReadable : List Json → Bool
  | [] => true
  | item :: items => item.isReadable && areReadable items

/-- Whether no member holds an unreadable part. -/
def areMembersReadable : List (String × Json) → Bool
  | [] => true
  | (_, value) :: members => value.isReadable && areMembersReadable members

end

end Json

end Worklist
