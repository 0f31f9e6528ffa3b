import Worklist.Value

/-!
# Values as callers hand them in

Untyped values and their normalisation: every integer becomes an integer of the width that it came
in, and bytes, objects and files keep nothing but their kind.
-/

namespace Worklist

/-- A value before it is typed. -/
inductive RawValue where
  | null
  | boolean (b : Bool)
  | short (n : Int16)
  | integer (n : Int32)
  | long (n : Int64)
  | double (x : Binary64)
  | number (n : Numeric)
  | string (s : String)
  | date (t : Instant)
  | bytes (content : List UInt8)
  | object (typeName : String)
  | file (name : String)

/-- The typed value of a raw value. -/
def RawValue.normalize : RawValue → Value
  | null => .null
  | boolean b => .boolean b
  | short n => .integer n.toInt64 .short
  | integer n => .integer n.toInt64 .integer
  | long n => .integer n .long
  | double x => .double x
  | number n => .number n
  | string s => .string s
  | date t => .date t
  | bytes _ => .unsupported .bytes
  | object _ => .unsupported .object
  | file _ => .unsupported .file

end Worklist
