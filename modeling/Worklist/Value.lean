import Worklist.Binary64.Shortest
import Worklist.Instant.Text

/-!
# Typed values

The values that variables hold and queries compare with.  An integer remembers the width that it
was stored with; a number of a query has no width and is meant for every numeric value; values of
unsupported kinds can be stored but not queried.
-/

namespace Worklist

/-- The width that an integer was stored with. -/
inductive IntegerWidth where
  | short
  | integer
  | long
  deriving DecidableEq

namespace IntegerWidth

def typeName : IntegerWidth → String
  | short => "short"
  | integer => "integer"
  | long => "long"

/-- Whether a 64-bit integer is representable in a width. -/
def contains (w : IntegerWidth) (n : Int64) : Bool :=
  match w with
  | short => Int16.minValue.toInt ≤ n.toInt && n.toInt ≤ Int16.maxValue.toInt
  | integer => Int32.minValue.toInt ≤ n.toInt && n.toInt ≤ Int32.maxValue.toInt
  | long => true

end IntegerWidth

/-- A number of a query, meant for stored numbers of every type. -/
inductive Numeric where
  | integer (n : Int64)
  | decimal (x : Binary64)
  deriving DecidableEq, BEq

/-- Kinds of values that can be stored but not queried. -/
inductive UnsupportedKind where
  | bytes
  | object
  | file
  deriving DecidableEq

def UnsupportedKind.typeName : UnsupportedKind → String
  | .bytes => "bytes"
  | .object => "object"
  | .file => "file"

/-- A typed value.  `=` compares doubles by their bits and `==` by their numeric value. -/
inductive Value where
  | null
  | boolean (b : Bool)
  | string (s : String)
  | integer (n : Int64) (width : IntegerWidth)
  | double (x : Binary64)
  | number (n : Numeric)
  | date (t : Instant)
  | unsupported (kind : UnsupportedKind)
  deriving DecidableEq, BEq

namespace Value

def typeName : Value → String
  | null => "null"
  | boolean _ => "boolean"
  | string _ => "string"
  | integer _ width => width.typeName
  | double _ => "double"
  | number _ => "number"
  | date _ => "date"
  | unsupported kind => kind.typeName

/-- Null and booleans can only be compared for identity. -/
def isNullOrBoolean : Value → Bool
  | null => true
  | boolean _ => true
  | _ => false

/-- The text that shows a value. -/
def text : Value → String
  | null => "null"
  | boolean true => "true"
  | boolean false => "false"
  | string s => "'" ++ s ++ "'"
  | integer n _ => toString n.toInt
  | double x => x.text
  | number (.integer n) => toString n.toInt
  | number (.decimal x) => x.text
  | date t => t.offsetText
  | unsupported kind => "<" ++ kind.typeName ++ ">"

end Value

end Worklist
