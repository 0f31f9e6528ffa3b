import Worklist.Proofs.Wire.Record
import Worklist.Wire.Value

/-!
# Values and variables that survive the wire

Typed values, variable predicates and what they consist of, read back from their JSON forms.

* `Value.Portable` excludes decimals and dates whose text does not lead back to them.
* `value?_ofValue` reads every value but for decimals, where a date is what its text says, and
  `survives_value` is the case of portable values.
* `survives_variablePredicate` includes the check that the reader makes.
-/

namespace Worklist

/-- The text of a date leads back to the date. -/
def Instant.ReadsBack (t : Instant) : Prop := ofText? t.zuluText = some t

instance (t : Instant) : Decidable t.ReadsBack := inferInstanceAs (Decidable (_ = _))

namespace Value

/-- A value without decimals. -/
def IsExact : Value → Prop
  | double _ => False
  | number (.decimal _) => False
  | _ => True

/-- The value that a value is read as: a date is what its text says. -/
def reread? : Value → Option Value
  | date t => (Instant.ofText? t.zuluText).map date
  | v => some v

/-- A value without decimals whose date, if it is one, is read back. -/
def Portable : Value → Prop
  | double _ => False
  | number (.decimal _) => False
  | date t => t.ReadsBack
  | _ => True

theorem Portable.isExact {v : Value} (h : v.Portable) : v.IsExact := by
  cases v with
  | number n =>
    cases n with
    | integer n => trivial
    | decimal x => cases h
  | double x => cases h
  | _ => trivial

theorem Portable.reread? {v : Value} (h : v.Portable) : v.reread? = some v := by
  cases v with
  | date t =>
    rw [Value.reread?, show Instant.ofText? t.zuluText = some t from h]
    rfl
  | _ => rfl

end Value

/-- Parts without objection make a predicate that has them. -/
theorem VariablePredicate.new_of_none {name : String} {value : Value}
    {operator : VariableOperator} (h : objection? name value operator = none)
    (scope : VariableScope) (isLocal : Bool) :
    new name value operator scope isLocal = .ok ⟨name, value, operator, scope, isLocal, h⟩ := by
  rw [new]
  split
  · next e he =>
    rw [h] at he
    cases he
  · rfl

namespace Wire

variable {room : Nat}

/-! ## Numbers and dates -/

theorem fits_signed {n : Int} (hlow : -9223372036854775808 ≤ n) (hhigh : n < 9223372036854775808)
    (room : Nat) : (Json.integer n).Fits room := by
  have hlimit : Json.wordLimit = 18446744073709551616 := rfl
  apply Json.fits_integer
  rw [Json.IsWord]
  omega

@[simp] theorem fits_int64 (n : Int64) (room : Nat) : (Json.integer n.toInt).Fits room := by
  have hlow := n.le_toInt
  have hhigh := n.toInt_lt
  exact fits_signed (by omega) (by omega) room

@[simp] theorem fits_int32 (n : Int32) (room : Nat) : (Json.integer n.toInt).Fits room := by
  have hlow := n.le_toInt
  have hhigh := n.toInt_lt
  exact fits_signed (by omega) (by omega) room

theorem survives_int64 (n : Int64) :
    Survives (fun n : Int64 => .integer n.toInt) int64? room n where
  fits := fits_int64 n room
  read := by
    rw [int64?, integer?, if_pos ⟨n.minValue_le_toInt, n.toInt_le⟩, Option.map_some,
      Int64.ofInt_toInt]

theorem survives_int32 (n : Int32) :
    Survives (fun n : Int32 => .integer n.toInt) int32? room n where
  fits := fits_int32 n room
  read := by
    rw [int32?, integer?, if_pos ⟨n.minValue_le_toInt, n.toInt_le⟩, Option.map_some,
      Int32.ofInt_toInt]

/-- An integer stays an integer without a mark of its type. -/
theorem survives_numeric (n : Int64) : Survives ofNumeric numeric? room (.integer n) where
  fits := fits_int64 n room
  read := by
    have hint : Survives (fun n : Int64 => .integer n.toInt) int64? room n := survives_int64 n
    rw [ofNumeric, numeric?, hint.read]

@[simp] theorem fits_ofInstant (t : Instant) (room : Nat) : (ofInstant t).Fits room :=
  Json.fits_string room t.zuluText

theorem survives_instant {t : Instant} (h : t.ReadsBack) :
    Survives ofInstant instant? room t where
  fits := fits_ofInstant t room
  read := by
    rw [ofInstant, instant?, string?, Option.bind_some]
    exact h

/-! ## Names -/

theorem isNamed_width (w : IntegerWidth) : IsNamed w := by cases w <;> rfl

theorem isNamed_unsupported (k : UnsupportedKind) : IsNamed k := by cases k <;> rfl

theorem isNamed_operator (o : VariableOperator) : IsNamed o := by cases o <;> rfl

theorem isNamed_scope (s : VariableScope) : IsNamed s := by cases s <;> rfl

/-! ## Typed values -/

theorem widthInteger?_object (isKept : Bool) (n : Int64) (w : IntegerWidth) :
    widthInteger? isKept (.object [("value", .integer n.toInt), ("width", toName w)]) =
      some (.integer n w) := by
  have hrecord := of?_object ["value", "width"]
    [("value", .integer n.toInt), ("width", toName w)] (by simp) (by simp)
  have hint : Survives (fun n : Int64 => .integer n.toInt) int64? 0 n := survives_int64 n
  have hname : Survives toName (ofName? isKept) 0 w := survives_name (isNamed_width w) isKept
  have hvalue : int64? (.integer n.toInt) = some n := hint.read
  simp only [widthInteger?, hrecord, some_bind, Record.required?, List.lookup_cons,
    String.reduceBEq, beq_self_eq_true, Option.bind_some, hvalue, hname.read, Option.pure_def]

/-- Every value without decimals is read, and is read as what its text says. -/
theorem value?_ofValue {v : Value} (h : v.IsExact) : value? (ofValue v) = v.reread? := by
  cases v with
  | null => simp [value?, ofValue, of?_tag, Tagged.alone?, Value.reread?]
  | boolean b => simp [value?, ofValue, of?_tagged, Tagged.content?, bool?, Value.reread?]
  | string s => simp [value?, ofValue, of?_tagged, Tagged.content?, string?, Value.reread?]
  | integer n w =>
    simp [value?, ofValue, of?_tagged, Tagged.content?, widthInteger?_object, Value.reread?]
  | double x => cases h
  | number n =>
    cases n with
    | integer n =>
      have hnumeric : Survives ofNumeric numeric? 0 (.integer n) := survives_numeric n
      simp [value?, ofValue, of?_tagged, Tagged.content?, hnumeric.read, Value.reread?]
    | decimal x => cases h
  | date t =>
    simp [value?, ofValue, of?_tagged, Tagged.content?, ofInstant, instant?, string?,
      Value.reread?]
  | unsupported k =>
    have hname : Survives toName (ofName? false) 0 k :=
      survives_name (isNamed_unsupported k) false
    simp [value?, ofValue, of?_tagged, Tagged.content?, hname.read, Value.reread?]

theorem fits_ofValue {v : Value} (h : v.IsExact) : (ofValue v).Fits (room + 2) := by
  cases v with
  | null => exact Json.fits_object.2 (by simp)
  | integer n w => exact fits_tagged (Json.fits_object.2 (by simp))
  | double x => cases h
  | number n =>
    cases n with
    | integer n => exact fits_tagged (fits_int64 n _)
    | decimal x => cases h
  | date t => exact fits_tagged (fits_ofInstant t _)
  | unsupported k => exact fits_tagged (fits_toName k _)
  | boolean b => exact fits_tagged (Json.fits_bool _ b)
  | string s => exact fits_tagged (Json.fits_string _ s)

theorem survives_value {v : Value} (h : v.Portable) : Survives ofValue value? (room + 2) v :=
  ⟨fits_ofValue h.isExact, (value?_ofValue h.isExact).trans h.reread?⟩

/-! ## Variable predicates -/

/-- The form in which the parts of a predicate are written, whether there is an objection to them
or not. -/
def variableForm (name : String) (value : Json) (operator : VariableOperator)
    (scope : VariableScope) (isLocal : Bool) : Json :=
  .object [
    ("name", .string name),
    ("value", value),
    ("operator", toName operator),
    ("scope", toName scope),
    ("is_local", .bool isLocal)]

/-- The reader checks the parts that it reads. -/
theorem variablePredicate?_variableForm (name : String) (value : Json)
    (operator : VariableOperator) (scope : VariableScope) (isLocal : Bool) :
    variablePredicate? (variableForm name value operator scope isLocal) =
      (value? value).bind fun v =>
        (VariablePredicate.new name v operator scope isLocal).toOption := by
  have hrecord := of?_object ["name", "value", "operator", "scope", "is_local"]
    [("name", .string name), ("value", value), ("operator", toName operator),
      ("scope", toName scope), ("is_local", .bool isLocal)] (by simp) (by simp)
  have hoperator : Survives toName (ofName? false) 0 operator :=
    survives_name (isNamed_operator operator) false
  have hscope : Survives toName (ofName? false) 0 scope :=
    survives_name (isNamed_scope scope) false
  simp only [variablePredicate?, variableForm, hrecord, some_bind, Record.required?,
    List.lookup_cons, String.reduceBEq, beq_self_eq_true, Option.bind_some, string?,
    hoperator.read, hscope.read, bool?]
  rfl

theorem survives_variablePredicate {p : VariablePredicate} (h : p.value.Portable) :
    Survives ofVariablePredicate variablePredicate? (room + 3) p where
  fits := by
    rw [ofVariablePredicate, Json.fits_object]
    simp [fits_ofValue h.isExact]
  read := by
    have hread := variablePredicate?_variableForm p.name (ofValue p.value) p.operator p.scope
      p.isLocal
    rw [value?_ofValue h.isExact, h.reread?, Option.bind_some,
      VariablePredicate.new_of_none p.unobjectionable] at hread
    exact hread

end Wire

end Worklist
