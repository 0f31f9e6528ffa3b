import Worklist.Proofs.Wire.Query
import Worklist.Wire.Task

/-!
# Everything that survives the wire

Tasks, and with them all types that have a JSON form.  What is asked of a value is that it has no
decimals, that its dates are read back from their texts, and that its positions and counts have 64
bits.

* `survives_task` is for tasks, of which every member is written.
* `round_trips` gathers the results for texts, one for each type.
-/

namespace Worklist

/-- A task without decimals whose dates are read back. -/
structure Task.Portable (t : Task) : Prop where
  createTime : t.createTime.ReadsBack
  dueDate : ∀ d ∈ t.dueDate, d.ReadsBack
  followUpDate : ∀ d ∈ t.followUpDate, d.ReadsBack
  storedVariables : ∀ v ∈ t.storedVariables, v.value.Portable

namespace Wire

variable {room : Nat}

/-! ## Tasks -/

theorem survives_taskVariable {v : TaskVariable} (h : v.value.Portable) :
    Survives ofTaskVariable taskVariable? (room + 3) v := by
  have hvalue : Survives ofValue value? (room + 2) v.value := survives_value h
  have hscope : Survives toName (ofName? false) (room + 2) v.scope :=
    survives_name (isNamed_scope v.scope) false
  have hrecord := of?_object ["name", "value", "scope"]
    [("name", .string v.name), ("value", ofValue v.value), ("scope", toName v.scope)]
    (by simp) (by simp)
  constructor
  · rw [ofTaskVariable, Json.fits_object]
    simp [hvalue.fits, hscope.fits]
  · simp only [taskVariable?, ofTaskVariable, hrecord, some_bind, Record.required?,
      List.lookup_cons, String.reduceBEq, beq_self_eq_true, Option.bind_some, string?, hvalue.read, hscope.read,
      Option.pure_def]

theorem survives_optionalText (s : Option String) :
    Survives (ofOption .string) (nullable? string?) room s :=
  survives_option (fun s _ => survives_string s) fun _ => Json.noConfusion

theorem survives_optionalDate {t : Option Instant} (h : ∀ d ∈ t, d.ReadsBack) :
    Survives (ofOption ofInstant) (nullable? instant?) room t :=
  survives_option (fun d hd => survives_instant (h d hd)) fun _ => Json.noConfusion

theorem survives_task {t : Task} (h : t.Portable) : Survives ofTask task? (room + 5) t := by
  have htext (s : Option String) :
      Survives (ofOption .string) (nullable? string?) (room + 4) s := survives_optionalText s
  have htexts (ss : List String) :
      Survives (ofList .string) (list? string?) (room + 4) ss := survives_texts ss
  have hdelegation : Survives (ofOption toName) (nullable? (ofName? false)) (room + 4)
      t.delegationState :=
    survives_option (fun s _ => survives_name (isNamed_delegation s) false) fun _ =>
      Json.noConfusion
  have hpriority : Survives (fun n : Int32 => .integer n.toInt) int32? (room + 4) t.priority :=
    survives_int32 t.priority
  have hcreate : Survives ofInstant instant? (room + 4) t.createTime :=
    survives_instant h.createTime
  have hdue : Survives (ofOption ofInstant) (nullable? instant?) (room + 4) t.dueDate :=
    survives_optionalDate h.dueDate
  have hfollowUp : Survives (ofOption ofInstant) (nullable? instant?) (room + 4) t.followUpDate :=
    survives_optionalDate h.followUpDate
  have hvariables : Survives (ofList ofTaskVariable) (list? taskVariable?) (room + 4)
      t.storedVariables :=
    survives_list fun v hv => survives_taskVariable (h.storedVariables v hv)
  have hrecord : Record.of? taskMembers (ofTask t) = _ :=
    of?_object taskMembers _ (by simp [taskMembers]) (by simp)
  constructor
  · rw [ofTask, Json.fits_object]
    simp [(htext _).fits, (htexts _).fits, hdelegation.fits, hcreate.fits, hdue.fits,
      hfollowUp.fits, hvariables.fits]
  · simp only [task?, hrecord, some_bind, Record.orDefault?, List.lookup_cons, String.reduceBEq,
      beq_self_eq_true, string?, bool?, (htext _).read, (htexts _).read, hdelegation.read,
      hpriority.read, hcreate.read, hdue.read, hfollowUp.read, hvariables.read, Option.pure_def]

/-! ## All types -/

theorem round_trips_name {α : Type} [Named α] {a : α} (h : IsNamed a) :
    RoundTrips toName (ofName? false) a :=
  (survives_name h false).roundTrips

/-- Every value of a type with a JSON form is read back from its text: typed values, variable
predicates, literal values, the filters of a group, groups, trees, closing plans, sort keys, stored
variables, tasks, positions, integers without a width, and all names. -/
theorem round_trips :
    (∀ v : Value, v.Portable → RoundTrips ofValue value? v) ∧
      (∀ p : VariablePredicate, p.value.Portable →
        RoundTrips ofVariablePredicate variablePredicate? p) ∧
      (∀ t : Term, t.Portable → RoundTrips ofTerm term? t) ∧
      (∀ s : PredicateSet, s.Portable → RoundTrips ofPredicateSet predicateSet? s) ∧
      (∀ n : Node, n.Portable → RoundTrips ofNode node? n) ∧
      (∀ t : Tree, t.Portable → RoundTrips ofTree tree? t) ∧
      (∀ c : Closing, c.Portable → RoundTrips ofClosing closing? c) ∧
      (∀ k : SortKey, RoundTrips ofSortKey sortKey? k) ∧
      (∀ v : TaskVariable, v.value.Portable → RoundTrips ofTaskVariable taskVariable? v) ∧
      (∀ t : Task, t.Portable → RoundTrips ofTask task? t) ∧
      (∀ id : Nat, id < UInt64.size → RoundTrips ofNat nat? id) ∧
      (∀ n : Int64, RoundTrips ofNumeric numeric? (.integer n)) ∧
      (∀ w : IntegerWidth, RoundTrips toName (ofName? false) w) ∧
      (∀ k : UnsupportedKind, RoundTrips toName (ofName? false) k) ∧
      (∀ o : VariableOperator, RoundTrips toName (ofName? false) o) ∧
      (∀ s : VariableScope, RoundTrips toName (ofName? false) s) ∧
      (∀ d : Dimension, RoundTrips toName (ofName? false) d) ∧
      (∀ f : Flag, RoundTrips toName (ofName? false) f) ∧
      (∀ s : SuspensionState, RoundTrips toName (ofName? false) s) ∧
      (∀ s : DelegationState, RoundTrips toName (ofName? false) s) ∧
      (∀ c : Connective, RoundTrips toName (ofName? false) c) ∧
      (∀ p : SortProperty, RoundTrips toName (ofName? false) p) ∧
      ∀ d : Direction, RoundTrips toName (ofName? false) d := by
  refine ⟨fun v h => (survives_value h).roundTrips,
    fun p h => (survives_variablePredicate h).roundTrips,
    fun t h => (survives_term h).roundTrips,
    fun s h => (survives_predicateSet h).roundTrips,
    fun n h => (survives_node h).roundTrips,
    fun t h => (survives_tree h).roundTrips,
    fun c h => (survives_closing h).roundTrips,
    fun k => (survives_sortKey k).roundTrips,
    fun v h => (survives_taskVariable h).roundTrips,
    fun t h => (survives_task h).roundTrips,
    fun n h => (survives_nat h).roundTrips,
    fun n => (survives_numeric n).roundTrips,
    fun w => round_trips_name (isNamed_width w),
    fun k => round_trips_name (isNamed_unsupported k),
    fun o => round_trips_name (isNamed_operator o),
    fun s => round_trips_name (isNamed_scope s),
    fun d => round_trips_name (named?_dimensionName d),
    fun f => round_trips_name (isNamed_flag f),
    fun s => round_trips_name (isNamed_suspension s),
    fun s => round_trips_name (isNamed_delegation s),
    fun c => round_trips_name (isNamed_connective c),
    fun p => round_trips_name (isNamed_property p),
    fun d => round_trips_name (isNamed_direction d)⟩

/-- A leap second in every place that a date can have, and a tree whose positions lead nowhere. -/
theorem round_trips_leap_second :
    let t : Instant := ⟨1483228799, 1500000000⟩
    let p : VariablePredicate :=
      { name := "\"due\" \u2603", value := .date t, operator := .lessThan,
        scope := .caseExecution, isLocal := true, unobjectionable := by decide }
    let s : PredicateSet := (PredicateSet.empty.setTerm .dueBefore (.date t) .or).addVariable p
    let n : Node := ⟨.or, s, some 7, [3, 3]⟩
    let v : TaskVariable := ⟨"", .date t, .taskLocal⟩
    RoundTrips ofValue value? (.date t) ∧
      RoundTrips ofVariablePredicate variablePredicate? p ∧
      RoundTrips ofTerm term? (.date t) ∧
      RoundTrips ofPredicateSet predicateSet? s ∧
      RoundTrips ofNode node? n ∧
      RoundTrips ofTree tree? ⟨#[n]⟩ ∧
      RoundTrips ofClosing closing? (.parens 18446744073709551615) ∧
      RoundTrips ofTaskVariable taskVariable? v ∧
      RoundTrips ofTask task? { dueDate := some t, storedVariables := [v] } ∧
      RoundTrips ofNat nat? 7 := by
  intro t p s n v
  have ht : t.ReadsBack := by decide +kernel
  have hs : s.Portable := by
    constructor
    · intro d ts hget
      change (Table.set Table.empty Dimension.dueBefore [.date t]).get? d = some ts at hget
      rw [Table.get?_set, Table.get?_empty] at hget
      split at hget
      · cases hget
        exact List.forall_mem_singleton.2 ht
      · cases hget
    · exact List.forall_mem_singleton.2 ht
  have hn : n.Portable := ⟨hs, by decide, by decide⟩
  have htree : (⟨#[n]⟩ : Tree).Portable := List.forall_mem_singleton.2 hn
  have htask : ({ dueDate := some t, storedVariables := [v] } : Task).Portable :=
    ⟨by decide +kernel, by simpa using ht, by simp, List.forall_mem_singleton.2 ht⟩
  obtain ⟨hvalue, hpredicate, hterm, hset, hnode, hnodes, hclosing, -, hvariable, htasks,
    hposition, -⟩ := round_trips
  exact ⟨hvalue _ ht, hpredicate _ ht, hterm _ ht, hset _ hs, hnode _ hn, hnodes _ htree,
    hclosing _ (by decide), hvariable _ ht, htasks _ htask, hposition _ (by decide)⟩

end Wire

end Worklist
