import Worklist.Binary64.Rounding
import Worklist.Variable
import Worklist.Wire.Record

/-!
# Values and variables in JSON

Reading and writing typed values and variable predicates.  A predicate is only read if there is
no objection to it.
-/

namespace Worklist.Wire

/-! ## Numbers and dates -/

/-- A 64-bit integer. -/
def int64? (j : Json) : Option Int64 :=
  (integer? Int64.minValue.toInt Int64.maxValue.toInt j).map Int64.ofInt

/-- A 32-bit integer. -/
def int32? (j : Json) : Option Int32 :=
  (integer? Int32.minValue.toInt Int32.maxValue.toInt j).map Int32.ofInt

/-- A number as a decimal. -/
def binary64? : Json → Option Binary64
  | .integer n => some (.ofInt n)
  | .decimal x => some x
  | _ => none

/-- A number that stays an integer if it is a 64-bit integer. -/
def numeric? (j : Json) : Option Numeric :=
  match int64? j with
  | some n => some (.integer n)
  | none => (binary64? j).map .decimal

def ofNumeric : Numeric → Json
  | .integer n => .integer n.toInt
  | .decimal x => .decimal x

/-- A date in its textual form. -/
def instant? (j : Json) : Option Instant := (string? j).bind Instant.ofText?

def ofInstant (t : Instant) : Json := .string t.zuluText

/-! ## Typed values -/

instance : Named IntegerWidth := ⟨[.short, .integer, .long], IntegerWidth.typeName⟩

instance : Named UnsupportedKind := ⟨[.bytes, .object, .file], UnsupportedKind.typeName⟩

/-- An integer with its width, which has to be an object. -/
def widthInteger? (isKept : Bool) (j : Json) : Option Value := do
  let .object _ := j | none
  let r ← Record.of? ["value", "width"] j
  return .integer (← r.required? "value" int64?) (← r.required? "width" (ofName? isKept))

def value? (j : Json) : Option Value := do
  let t ← Tagged.of? "type" "value" j
  match t.tag with
  | "null" => t.alone? .null
  | "boolean" => (t.content? bool?).map .boolean
  | "string" => (t.content? string?).map .string
  | "integer64" => t.content? (widthInteger? t.isKept)
  | "double" => (t.content? binary64?).map .double
  | "number" => (t.content? numeric?).map .number
  | "date" => (t.content? instant?).map .date
  | "unsupported" => (t.content? (ofName? t.isKept)).map .unsupported
  | _ => none

def ofValue : Value → Json
  | .null => .object [("type", .string "null")]
  | .boolean b => tagged "type" "boolean" "value" (.bool b)
  | .string s => tagged "type" "string" "value" (.string s)
  | .integer n width =>
    tagged "type" "integer64" "value"
      (.object [("value", .integer n.toInt), ("width", toName width)])
  | .double x => tagged "type" "double" "value" (.decimal x)
  | .number n => tagged "type" "number" "value" (ofNumeric n)
  | .date t => tagged "type" "date" "value" (ofInstant t)
  | .unsupported kind => tagged "type" "unsupported" "value" (toName kind)

/-! ## Variable predicates -/

instance : Named VariableOperator :=
  ⟨[.equals, .notEquals, .like, .greaterThan, .greaterThanOrEqual, .lessThan, .lessThanOrEqual],
    VariableOperator.name⟩

def scopeName : VariableScope → String
  | .taskLocal => "task_local"
  | .processInstance => "process_instance"
  | .caseExecution => "case_execution"

instance : Named VariableScope := ⟨[.taskLocal, .processInstance, .caseExecution], scopeName⟩

def variablePredicate? (j : Json) : Option VariablePredicate := do
  let r ← Record.of? ["name", "value", "operator", "scope", "is_local"] j
  let name ← r.required? "name" string?
  let value ← r.required? "value" value?
  let operator ← r.required? "operator" (ofName? false)
  let scope ← r.required? "scope" (ofName? false)
  let isLocal ← r.required? "is_local" bool?
  (VariablePredicate.new name value operator scope isLocal).toOption

def ofVariablePredicate (p : VariablePredicate) : Json :=
  .object [
    ("name", .string p.name),
    ("value", ofValue p.value),
    ("operator", toName p.operator),
    ("scope", toName p.scope),
    ("is_local", .bool p.isLocal)]

end Worklist.Wire
