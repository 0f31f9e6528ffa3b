import Worklist.Proofs.Criteria.Filters
import Worklist.Proofs.Wire.Value
import Worklist.Wire.Predicate

/-!
# Filters that survive the wire

Literal values, tables and the filters of a group, read back from their JSON forms.  A table is
written entry by entry and read by setting the entries one after the other, so that reading it
back comes down to what `Table.get?` says of each key.

* `Table.foldl_set_toList` puts a table together from its entries.
* `survives_term`, `survives_table` and `survives_flagSet` are for the parts of a group.
* `survives_predicateSet` is for the group, whichever filters it has.
-/

namespace Worklist

namespace Table

variable {κ α : Type} [Numbered κ] [DecidableEq κ]

/-- Setting entries of a table gives the table at their keys and changes nothing else. -/
theorem get?_foldl_set {t : Table κ α} {entries : List (κ × α)} (start : Table κ α)
    (h : ∀ e ∈ entries, t.get? e.1 = some e.2) (k : κ) :
    (entries.foldl (fun t e => t.set e.1 e.2) start).get? k =
      if k ∈ entries.map (·.1) then t.get? k else start.get? k := by
  induction entries generalizing start with
  | nil => rfl
  | cons e entries ih =>
    rw [List.forall_mem_cons] at h
    rw [List.foldl_cons, ih _ h.2, get?_set, List.map_cons]
    by_cases hk : e.1 = k
    · subst hk
      simp [h.1]
    · have hk' : k ≠ e.1 := Ne.symm hk
      simp only [List.mem_cons, if_neg hk, hk', false_or]

/-- A table is put together from its entries. -/
theorem foldl_set_toList (t : Table κ α) :
    t.toList.foldl (fun t e => t.set e.1 e.2) empty = t := by
  apply ext
  intro k
  rw [get?_foldl_set empty fun e he => mem_toList.1 he]
  split
  · rfl
  · next hk =>
    rw [get?_empty]
    cases hget : t.get? k with
    | none => rfl
    | some a => exact absurd (List.mem_map_of_mem (mem_toList.2 hget)) hk

end Table

/-- A literal value whose date, if it is one, is read back. -/
def Term.Portable : Term → Prop
  | .date t => t.ReadsBack
  | _ => True

/-- Filters without decimals whose dates are read back. -/
structure PredicateSet.Portable (s : PredicateSet) : Prop where
  terms : ∀ {d : Dimension} {ts : List Term}, s.terms.get? d = some ts → ∀ t ∈ ts, t.Portable
  variablePredicates : ∀ p ∈ s.variablePredicates, p.value.Portable

namespace Wire

variable {α : Type} {write : α → Json} {read? : Json → Option α} {room : Nat}

/-! ## Names -/

/-- Every dimension has a name of its own. -/
theorem named?_dimensionName (d : Dimension) : named? Dimension (dimensionName d) = some d := by
  have hall : ∀ d ∈ Dimension.all.toList, named? Dimension (dimensionName d) = some d := by
    decide +kernel
  exact hall d (Vector.mem_toList_iff.2 d.mem_all)

theorem isNamed_flag (f : Flag) : IsNamed f := by
  have hall : ∀ f ∈ Flag.all.toList, named? Flag (flagName f) = some f := by
    decide +kernel
  exact hall f (Vector.mem_toList_iff.2 f.mem_all)

theorem isNamed_suspension (s : SuspensionState) : IsNamed s := by cases s <;> rfl

theorem isNamed_delegation (s : DelegationState) : IsNamed s := by cases s <;> rfl

/-! ## Literal values -/

theorem survives_term {t : Term} (h : t.Portable) : Survives ofTerm term? (room + 2) t := by
  cases t with
  | text s =>
    exact ⟨fits_tagged (Json.fits_string _ s), by
      simp [term?, ofTerm, of?_tagged, Tagged.content?, string?]⟩
  | textSet ss =>
    have hlist : Survives (ofList .string) (list? string?) (room + 1) ss := survives_texts ss
    exact ⟨fits_tagged hlist.fits, by
      simp [term?, ofTerm, of?_tagged, Tagged.content?, hlist.read]⟩
  | int n =>
    have hint : Survives (fun n : Int32 => .integer n.toInt) int32? (room + 1) n :=
      survives_int32 n
    exact ⟨fits_tagged hint.fits, by
      simpa [term?, ofTerm, of?_tagged, Tagged.content?] using hint.read⟩
  | date t =>
    have hdate : Survives ofInstant instant? (room + 1) t := survives_instant h
    exact ⟨fits_tagged hdate.fits, by
      simp [term?, ofTerm, of?_tagged, Tagged.content?, hdate.read]⟩
  | suspension s =>
    have hname : Survives toName (ofName? false) (room + 1) s :=
      survives_name (isNamed_suspension s) false
    exact ⟨fits_tagged hname.fits, by
      simp [term?, ofTerm, of?_tagged, Tagged.content?, hname.read]⟩
  | delegation s =>
    have hname : Survives toName (ofName? false) (room + 1) s :=
      survives_name (isNamed_delegation s) false
    exact ⟨fits_tagged hname.fits, by
      simp [term?, ofTerm, of?_tagged, Tagged.content?, hname.read]⟩

/-! ## Tables -/

/-- Each entry is read under the name of its dimension. -/
theorem table?_ofTable {t : Table Dimension α}
    (h : ∀ {d : Dimension} {a : α}, t.get? d = some a → read? (write a) = some a) :
    table? read? (ofTable write t) = some t := by
  rw [ofTable, table?, mapM_map_eq_some]
  · exact congrArg some t.foldl_set_toList
  · intro e he
    simp [named?_dimensionName, h (Table.mem_toList.1 he)]

theorem survives_table {t : Table Dimension α}
    (h : ∀ {d : Dimension} {a : α}, t.get? d = some a → Survives write read? room a) :
    Survives (ofTable write) (table? read?) (room + 1) t where
  fits := by
    rw [ofTable, Json.fits_object, List.forall_mem_map]
    exact fun e he => (h (Table.mem_toList.1 he)).fits
  read := table?_ofTable fun hget => (h hget).read

theorem survives_flagSet (s : FlagSet) : Survives ofFlagSet flagSet? (room + 1) s := by
  have hlist : Survives (ofList toName) (list? (ofName? false)) (room + 1)
      (s.toList.map (·.1)) :=
    survives_list fun f _ => survives_name (isNamed_flag f) false
  constructor
  · exact hlist.fits
  · rw [flagSet?, ofFlagSet, hlist.read, Option.map_some, List.foldl_map]
    exact congrArg some s.foldl_set_toList

/-! ## Filters of a group -/

theorem survives_predicateSet {s : PredicateSet} (h : s.Portable) :
    Survives ofPredicateSet predicateSet? (room + 5) s := by
  have hterms : Survives (ofTable (ofList ofTerm)) (table? (list? term?)) (room + 4) s.terms :=
    survives_table fun hget => survives_list fun t ht => survives_term (h.terms hget t ht)
  have hexpressions :
      Survives (ofTable .string) (table? string?) (room + 4) s.expressions :=
    survives_table fun _ => survives_string _
  have hflags : Survives ofFlagSet flagSet? (room + 4) s.flags := survives_flagSet s.flags
  have hvariables : Survives (ofList ofVariablePredicate) (list? variablePredicate?) (room + 4)
      s.variablePredicates :=
    survives_list fun p hp => survives_variablePredicate (h.variablePredicates p hp)
  have hrecord := of?_object ["terms", "expressions", "flags", "variables"]
    [("terms", ofTable (ofList ofTerm) s.terms),
      ("expressions", ofTable .string s.expressions), ("flags", ofFlagSet s.flags),
      ("variables", ofList ofVariablePredicate s.variablePredicates)] (by simp) (by simp)
  constructor
  · rw [ofPredicateSet, Json.fits_object]
    simp [hterms.fits, hexpressions.fits, hflags.fits, hvariables.fits]
  · simp only [predicateSet?, ofPredicateSet, hrecord, some_bind, Record.required?,
      List.lookup_cons, String.reduceBEq, beq_self_eq_true, Option.bind_some, hterms.read, hexpressions.read,
      hflags.read, hvariables.read, Option.pure_def]

end Wire

end Worklist
