import Worklist.Proofs.Instant.Text
import Worklist.Proofs.Wire.Query

/-!
# Predicates that can be made

Which parts make a variable predicate, and that every way to make one asks for the same.

* `Acceptable` says what the parts have to be like, and `objection?_eq_none_iff` that the check asks
  for nothing else.
* `Value.Resembles` relates a value to what its text is read as.  The check does not tell them apart,
  so that rounding a decimal on the wire never makes a predicate acceptable.
* `made_iff_acceptable` is about all ways: building, building from a raw value, and reading a text,
  in which the predicate may stand alone or within a group or a tree.
* `irregular_date_changed` is about the dates that a text does not give back.
-/

namespace Worklist

/-! ## Acceptable parts -/

namespace VariablePredicate

/-- A name that is not blank, a value that can be queried, and an operator that it supports. -/
structure Acceptable (name : String) (value : Value) (operator : VariableOperator) : Prop where
  name : ∃ c ∈ name.toList, Text.isBlank c = false
  supported : ∀ kind, value ≠ .unsupported kind
  identity : (value = .null ∨ ∃ b, value = .boolean b) →
    operator = .equals ∨ operator = .notEquals
  pattern : operator = .like → ∃ s, value = .string s

variable {name : String} {value : Value} {operator : VariableOperator}

theorem isBlankText_eq_false_iff :
    Text.isBlankText name = false ↔ ∃ c ∈ name.toList, Text.isBlank c = false := by
  rw [Text.isBlankText, List.all_eq_false]
  simp

/-- The check has no objection to acceptable parts, and to no others. -/
theorem objection?_eq_none_iff :
    objection? name value operator = none ↔ Acceptable name value operator := by
  cases hblank : Text.isBlankText name with
  | true =>
    refine iff_of_false (by simp [objection?, hblank]) fun h => ?_
    rw [isBlankText_eq_false_iff.2 h.name] at hblank
    cases hblank
  | false =>
    have hiff : Acceptable name value operator ↔
        (∀ kind, value ≠ .unsupported kind) ∧
          ((value = .null ∨ ∃ b, value = .boolean b) →
            operator = .equals ∨ operator = .notEquals) ∧
          (operator = .like → ∃ s, value = .string s) :=
      ⟨fun h => ⟨h.supported, h.identity, h.pattern⟩,
        fun h => ⟨isBlankText_eq_false_iff.1 hblank, h.1, h.2.1, h.2.2⟩⟩
    rw [hiff]
    cases value <;> cases operator <;>
      simp [objection?, hblank, Value.isNullOrBoolean, VariableOperator.isIdentity]

instance : Decidable (Acceptable name value operator) :=
  decidable_of_iff _ objection?_eq_none_iff

/-- Every predicate has acceptable parts. -/
theorem acceptable (p : VariablePredicate) : Acceptable p.name p.value p.operator :=
  objection?_eq_none_iff.1 p.unobjectionable

theorem new_of_some {e : QueryError} (h : objection? name value operator = some e)
    (scope : VariableScope) (isLocal : Bool) :
    new name value operator scope isLocal = .error e := by
  rw [new]
  split
  · next e' he =>
    rw [h] at he
    cases he
    rfl
  · next hnone =>
    rw [h] at hnone
    cases hnone

end VariablePredicate

/-! ## Values that are read for others -/

namespace Value

/-- A value that can be read for another: decimals may be rounded, and a date is what its text
says. -/
inductive Resembles : Value → Value → Prop where
  | refl (v : Value) : Resembles v v
  | double (x y : Binary64) : Resembles (double x) (double y)
  | number (m n : Numeric) : Resembles (number m) (number n)
  | date (s t : Instant) : Resembles (date s) (date t)

/-- The value that is read for a value without decimals, if its date exists. -/
def reread : Value → Value
  | date t => date t.reread
  | v => v

/-- A value whose date, if it is one, exists. -/
def HasValidDate : Value → Prop
  | date t => t.IsValid
  | _ => True

/-- A value whose date, if it is one, exists and tells no leap second within a minute. -/
def HasRegularDate : Value → Prop
  | date t => t.IsValid ∧ (t.nanos < 1000000000 ∨ t.seconds % 60 = 59)
  | _ => True

theorem HasRegularDate.hasValidDate {v : Value} (h : v.HasRegularDate) : v.HasValidDate := by
  cases v with
  | date t => exact h.1
  | _ => trivial

theorem HasRegularDate.reread {v : Value} (h : v.HasRegularDate) : v.reread = v := by
  cases v with
  | date t => exact congrArg date (Instant.reread_eq_self h.2)
  | _ => rfl

theorem reread?_eq_some {v : Value} (h : v.HasValidDate) : v.reread? = some v.reread := by
  cases v with
  | date t =>
    rw [reread?, Instant.ofText?_zuluText h]
    rfl
  | _ => rfl

theorem resembles_of_reread? {v w : Value} (h : v.reread? = some w) : w.Resembles v := by
  cases v with
  | date t =>
    rw [reread?, Option.map_eq_some_iff] at h
    obtain ⟨t', -, rfl⟩ := h
    exact .date t' t
  | _ =>
    rw [← Option.some.inj h]
    exact .refl _

end Value

/-- The check does not tell a value from one that is read for it. -/
theorem VariablePredicate.objection?_congr {v w : Value} (h : w.Resembles v) (name : String)
    (operator : VariableOperator) : objection? name w operator = objection? name v operator := by
  cases h <;> rfl

namespace Wire

variable {room : Nat}

theorem reread_tagged (tagName tag contentName : String) (content : Json) :
    (tagged tagName tag contentName content).reread =
      tagged tagName tag contentName content.reread := by
  rw [tagged, Json.reread_object]
  rfl

theorem writable_tagged {tagName tag contentName : String} {content : Json}
    (h : content.Writable room) : (tagged tagName tag contentName content).Writable (room + 1) :=
  ⟨Nat.succ_pos room, trivial, h, trivial⟩

theorem writable_ofValue (v : Value) : (ofValue v).Writable (room + 2) := by
  have hexact (hv : v.IsExact) : (ofValue v).Writable (room + 2) := (fits_ofValue hv).1
  cases v with
  | double x => exact writable_tagged trivial
  | number n =>
    cases n with
    | integer n => exact hexact trivial
    | decimal x => exact writable_tagged trivial
  | _ => exact hexact trivial

/-- Whatever is read for the form of a value is a value like it. -/
theorem resembles_of_value? {v w : Value} (h : value? (ofValue v).reread = some w) :
    w.Resembles v := by
  have hexact (hv : v.IsExact) : w.Resembles v := by
    have hfits : (ofValue v).Fits 2 := fits_ofValue hv
    rw [hfits.2, value?_ofValue hv] at h
    exact Value.resembles_of_reread? h
  cases v with
  | double x =>
    rw [ofValue, reread_tagged] at h
    simp only [value?, of?_tagged, some_bind, Tagged.content?, Option.bind_some,
      Option.map_eq_some_iff] at h
    obtain ⟨y, -, rfl⟩ := h
    exact .double y x
  | number n =>
    rw [ofValue, reread_tagged] at h
    simp only [value?, of?_tagged, some_bind, Tagged.content?, Option.bind_some,
      Option.map_eq_some_iff] at h
    obtain ⟨m, -, rfl⟩ := h
    exact .number m n
  | _ => exact hexact trivial

/-- Reads the text in which the parts of a predicate are written. -/
def readParts? (name : String) (value : Value) (operator : VariableOperator)
    (scope : VariableScope) (isLocal : Bool) : Option VariablePredicate :=
  (Json.ofText? (variableForm name (ofValue value) operator scope isLocal).toText).bind
    variablePredicate?

/-- The value is read and the parts are checked. -/
theorem readParts?_eq (name : String) (value : Value) (operator : VariableOperator)
    (scope : VariableScope) (isLocal : Bool) :
    readParts? name value operator scope isLocal =
      (value? (ofValue value).reread).bind fun v =>
        (VariablePredicate.new name v operator scope isLocal).toOption := by
  have hwritable : (variableForm name (ofValue value) operator scope isLocal).Writable
      Json.depthLimit :=
    ⟨by decide, trivial, writable_ofValue value, trivial, trivial, trivial, trivial⟩
  have hreread : (variableForm name (ofValue value) operator scope isLocal).reread =
      variableForm name (ofValue value).reread operator scope isLocal := by
    rw [variableForm, Json.reread_object]
    rfl
  rw [readParts?, Json.ofText?_toText hwritable, Option.bind_some, hreread,
    variablePredicate?_variableForm]

end Wire

/-! ## Ways to make a predicate -/

namespace VariablePredicate

open Wire

variable {name : String} {value : Value} {operator : VariableOperator}

theorem new_of_acceptable (h : Acceptable name value operator) (scope : VariableScope)
    (isLocal : Bool) :
    new name value operator scope isLocal =
      .ok ⟨name, value, operator, scope, isLocal, objection?_eq_none_iff.2 h⟩ :=
  new_of_none _ scope isLocal

theorem new_of_not_acceptable (h : ¬Acceptable name value operator) (scope : VariableScope)
    (isLocal : Bool) : ∃ e, new name value operator scope isLocal = .error e := by
  rw [← objection?_eq_none_iff, ← Ne, Option.ne_none_iff_exists'] at h
  obtain ⟨e, he⟩ := h
  exact ⟨e, new_of_some he scope isLocal⟩

/-- Acceptable parts are read from their text, with the date that the text says. -/
theorem readParts?_of_acceptable (hexact : value.IsExact) (hdate : value.HasValidDate)
    (h : Acceptable name value operator) (scope : VariableScope) (isLocal : Bool) :
    ∃ hp, readParts? name value operator scope isLocal =
      some ⟨name, value.reread, operator, scope, isLocal, hp⟩ := by
  have hfits : (Wire.ofValue value).Fits 2 := Wire.fits_ofValue hexact
  have hvalue : Wire.value? (Wire.ofValue value).reread = some value.reread := by
    rw [hfits.2, Wire.value?_ofValue hexact, Value.reread?_eq_some hdate]
  have hreread : Acceptable name value.reread operator := by
    rw [← objection?_eq_none_iff, objection?_congr (Wire.resembles_of_value? hvalue)]
    exact objection?_eq_none_iff.2 h
  refine ⟨objection?_eq_none_iff.2 hreread, ?_⟩
  rw [Wire.readParts?_eq, hvalue, Option.bind_some, new_of_acceptable hreread]
  rfl

/-- Parts that are not acceptable are not read, whatever their value is read as. -/
theorem readParts?_of_not_acceptable (h : ¬Acceptable name value operator) (scope : VariableScope)
    (isLocal : Bool) : readParts? name value operator scope isLocal = none := by
  rw [Wire.readParts?_eq, Option.bind_eq_none_iff]
  intro w hw
  have hreread : ¬Acceptable name w operator := by
    rw [← objection?_eq_none_iff, objection?_congr (Wire.resembles_of_value? hw)]
    exact fun hnone => h (objection?_eq_none_iff.1 hnone)
  obtain ⟨e, he⟩ := new_of_not_acceptable hreread scope isLocal
  rw [he]
  rfl

/-- Whichever way a predicate is made, its parts are acceptable: built, built from a raw value, or
read from a text alone or within the filters of a group, a group or a tree.  Acceptable parts make
a predicate that has them, and other parts make none. -/
theorem made_iff_acceptable :
    (∀ name value operator scope isLocal p, new name value operator scope isLocal = .ok p →
        Acceptable p.name p.value p.operator) ∧
      (∀ name raw operator scope isLocal p, ofRaw name raw operator scope isLocal = .ok p →
        Acceptable p.name p.value p.operator) ∧
      (∀ text p, (Json.ofText? text).bind variablePredicate? = some p →
        Acceptable p.name p.value p.operator) ∧
      (∀ text s, (Json.ofText? text).bind predicateSet? = some s →
        ∀ p ∈ s.variablePredicates, Acceptable p.name p.value p.operator) ∧
      (∀ text n, (Json.ofText? text).bind node? = some n →
        ∀ p ∈ n.predicates.variablePredicates, Acceptable p.name p.value p.operator) ∧
      (∀ text t, (Json.ofText? text).bind tree? = some t →
        ∀ n ∈ t.nodes, ∀ p ∈ n.predicates.variablePredicates,
          Acceptable p.name p.value p.operator) ∧
      (∀ name value operator scope isLocal, Acceptable name value operator →
        ∃ hp, new name value operator scope isLocal =
          .ok ⟨name, value, operator, scope, isLocal, hp⟩) ∧
      (∀ name value operator scope isLocal, ¬Acceptable name value operator →
        ∃ e, new name value operator scope isLocal = .error e) ∧
      (∀ name value operator scope isLocal, value.IsExact → value.HasRegularDate →
        Acceptable name value operator →
          ∃ hp, readParts? name value operator scope isLocal =
            some ⟨name, value, operator, scope, isLocal, hp⟩) ∧
      (∀ name value operator scope isLocal, value.IsExact → value.HasValidDate →
        Acceptable name value operator →
          ∃ hp, readParts? name value operator scope isLocal =
            some ⟨name, value.reread, operator, scope, isLocal, hp⟩) ∧
      ∀ name value operator scope isLocal, ¬Acceptable name value operator →
        readParts? name value operator scope isLocal = none := by
  refine ⟨fun _ _ _ _ _ p _ => p.acceptable, fun _ _ _ _ _ p _ => p.acceptable,
    fun _ p _ => p.acceptable, fun _ _ _ p _ => p.acceptable, fun _ _ _ p _ => p.acceptable,
    fun _ _ _ _ _ p _ => p.acceptable, ?_, ?_, ?_, ?_, ?_⟩
  · intro name value operator scope isLocal h
    exact ⟨_, new_of_acceptable h scope isLocal⟩
  · intro name value operator scope isLocal h
    exact new_of_not_acceptable h scope isLocal
  · intro name value operator scope isLocal hexact hdate h
    have hread := readParts?_of_acceptable hexact hdate.hasValidDate h scope isLocal
    rw [hdate.reread] at hread
    exact hread
  · intro name value operator scope isLocal hexact hdate h
    exact readParts?_of_acceptable hexact hdate h scope isLocal
  · intro name value operator scope isLocal h
    exact readParts?_of_not_acceptable h scope isLocal

/-- A comparison with a leap second, made in every way, and what becomes of it with a pattern as its
operator. -/
theorem made_iff_acceptable_leap_second :
    let t : Instant := ⟨1483228799, 1500000000⟩
    let p : VariablePredicate :=
      { name := "due", value := .date t, operator := .lessThan, scope := .taskLocal,
        isLocal := false, unobjectionable := by decide }
    let s : PredicateSet := PredicateSet.empty.addVariable p
    let n : Node := ⟨.and, s, none, []⟩
    let tree : Tree := ⟨#[n]⟩
    (new "due" (.date t) .lessThan .taskLocal false = .ok p ∧
        Acceptable p.name p.value p.operator) ∧
      (ofRaw "due" (.date t) .lessThan .taskLocal false = .ok p ∧
        Acceptable p.name p.value p.operator) ∧
      ((Json.ofText? (Wire.ofVariablePredicate p).toText).bind variablePredicate? = some p ∧
        Acceptable p.name p.value p.operator) ∧
      ((Json.ofText? (Wire.ofPredicateSet s).toText).bind predicateSet? = some s ∧
        ∀ p ∈ s.variablePredicates, Acceptable p.name p.value p.operator) ∧
      ((Json.ofText? (Wire.ofNode n).toText).bind node? = some n ∧
        ∀ p ∈ n.predicates.variablePredicates, Acceptable p.name p.value p.operator) ∧
      ((Json.ofText? (Wire.ofTree tree).toText).bind tree? = some tree ∧
        ∀ n ∈ tree.nodes, ∀ p ∈ n.predicates.variablePredicates,
          Acceptable p.name p.value p.operator) ∧
      (∃ hp, new "due" (.date t) .lessThan .taskLocal false =
        .ok ⟨"due", .date t, .lessThan, .taskLocal, false, hp⟩) ∧
      (∃ hp, readParts? "due" (.date t) .lessThan .taskLocal false =
        some ⟨"due", .date t, .lessThan, .taskLocal, false, hp⟩) ∧
      (∃ hp, readParts? "due" (.date t) .lessThan .taskLocal false =
        some ⟨"due", (Value.date t).reread, .lessThan, .taskLocal, false, hp⟩) ∧
      (∃ e, new "due" (.date t) .like .taskLocal false = .error e) ∧
      readParts? "due" (.date t) .like .taskLocal false = none := by
  intro t p s n tree
  have hreads : t.ReadsBack := by decide +kernel
  have hdate : (Value.date t).HasRegularDate :=
    ⟨⟨by decide +kernel, by decide⟩, .inr (by decide)⟩
  have hp : Acceptable "due" (.date t) .lessThan := by decide
  have hlike : ¬Acceptable "due" (.date t) .like := by decide
  have hs : s.Portable := by
    constructor
    · intro d ts hget
      change Table.empty.get? d = some ts at hget
      rw [Table.get?_empty] at hget
      cases hget
    · exact List.forall_mem_singleton.2 hreads
  have hn : n.Portable := ⟨hs, by decide, by decide⟩
  have htree : tree.Portable := List.forall_mem_singleton.2 hn
  obtain ⟨hnew, hraw, hread, hset, hnode, htrees, hmake, hrefuse, hunchanged, hdated, hunread⟩ :=
    made_iff_acceptable
  have hmade := new_of_acceptable hp .taskLocal false
  have hreadAlone := (Wire.survives_variablePredicate (p := p) hreads).roundTrips
  have hreadSet := (Wire.survives_predicateSet hs).roundTrips
  have hreadNode := (Wire.survives_node hn).roundTrips
  have hreadTree := (Wire.survives_tree htree).roundTrips
  exact ⟨⟨hmade, hnew _ _ _ _ _ p hmade⟩, ⟨hmade, hraw _ (.date t) _ _ _ p hmade⟩,
    ⟨hreadAlone, hread _ p hreadAlone⟩, ⟨hreadSet, hset _ s hreadSet⟩,
    ⟨hreadNode, hnode _ n hreadNode⟩, ⟨hreadTree, htrees _ tree hreadTree⟩,
    hmake _ _ _ _ _ hp, hunchanged _ _ _ _ _ trivial hdate hp,
    hdated _ _ _ _ _ trivial hdate.hasValidDate hp, hrefuse _ _ _ _ _ hlike,
    hunread _ _ _ _ _ hlike⟩

/-- Acceptable parts without decimals are not always read unchanged.

A date may tell a leap second within a minute.  Its text carries the surplus over to the next second,
and a stored date that lies between the two tells the predicates apart. -/
theorem irregular_date_changed :
    let t : Instant := ⟨65, 1500000000⟩
    let t' : Instant := ⟨66, 500000000⟩
    let between : Value := .date ⟨66, 0⟩
    (t.IsValid ∧ Acceptable "due" (.date t) .greaterThan) ∧
      (∃ p p', new "due" (.date t) .greaterThan .taskLocal false = .ok p ∧ p.value = .date t ∧
        readParts? "due" (.date t) .greaterThan .taskLocal false = some p' ∧ p'.value = .date t' ∧
        p.matchesValue between false '\\' = true ∧ p'.matchesValue between false '\\' = false) ∧
      ¬∀ name value operator scope isLocal, value.IsExact → value.HasValidDate →
        Acceptable name value operator →
          ∃ hp, readParts? name value operator scope isLocal =
            some ⟨name, value, operator, scope, isLocal, hp⟩ := by
  intro t t' between
  have hvalid : t.IsValid := ⟨by decide +kernel, by decide⟩
  have hexact : (Value.date t).IsExact := trivial
  have hp : Acceptable "due" (.date t) .greaterThan := by decide
  have hreread : (Value.date t).reread = .date t' := by decide
  obtain ⟨hp', hread⟩ := readParts?_of_acceptable hexact hvalid hp .taskLocal false
  simp only [hreread] at hread
  refine ⟨⟨hvalid, hp⟩,
    ⟨_, _, new_of_acceptable hp .taskLocal false, rfl, hread, rfl, rfl, rfl⟩, ?_⟩
  intro hunchanged
  obtain ⟨hp'', heq⟩ := hunchanged "due" (.date t) .greaterThan .taskLocal false hexact hvalid hp
  have hsame : t = t' := by
    have hvalue := congrArg (Option.map VariablePredicate.value) (heq.symm.trans hread)
    exact Value.date.inj (Option.some.inj hvalue)
  exact absurd hsame (by decide)

end VariablePredicate

end Worklist
