import Worklist.Predicate.Set
import Worklist.Wire.Value

/-!
# Filters in JSON

Reading and writing literal values, switches and the filters of a group.  Literal values and
expressions stand in objects by dimension, where the last of repeated members counts.
-/

namespace Worklist.Wire

/-! ## Names -/

/-- A text with a small first letter. -/
def uncapitalized (s : String) : String :=
  match s.toList with
  | c :: cs => String.ofList (c.toLower :: cs)
  | [] => s

def dimensionName (d : Dimension) : String := uncapitalized d.display

instance : Named Dimension := ⟨Dimension.all.toList, dimensionName⟩

def flagName : Flag → String
  | .unassigned => "unassigned"
  | .assigned => "assigned"
  | .withCandidateGroups => "withCandidateGroups"
  | .withoutCandidateGroups => "withoutCandidateGroups"
  | .withCandidateUsers => "withCandidateUsers"
  | .withoutCandidateUsers => "withoutCandidateUsers"
  | .withoutTenantId => "withoutTenantId"
  | .withoutDueDate => "withoutDueDate"
  | .includeAssignedTasks => "includeAssignedTasks"
  | .matchVariableNamesIgnoreCase => "matchVariableNamesIgnoreCase"
  | .matchVariableValuesIgnoreCase => "matchVariableValuesIgnoreCase"

instance : Named Flag := ⟨Flag.all.toList, flagName⟩

def suspensionName : SuspensionState → String
  | .active => "ACTIVE"
  | .suspended => "SUSPENDED"

instance : Named SuspensionState := ⟨[.active, .suspended], suspensionName⟩

instance : Named DelegationState := ⟨[.pending, .resolved], DelegationState.text⟩

/-! ## Literal values -/

def term? (j : Json) : Option Term := do
  let t ← Tagged.of? "type" "value" j
  match t.tag with
  | "text" => (t.content? string?).map .text
  | "textSet" => (t.content? (list? string?)).map .textSet
  | "int" => (t.content? int32?).map .int
  | "date" => (t.content? instant?).map .date
  | "suspension" => (t.content? (ofName? t.isKept)).map .suspension
  | "delegation" => (t.content? (ofName? t.isKept)).map .delegation
  | _ => none

def ofTerm : Term → Json
  | .text s => tagged "type" "text" "value" (.string s)
  | .textSet ss => tagged "type" "textSet" "value" (ofList .string ss)
  | .int n => tagged "type" "int" "value" (.integer n.toInt)
  | .date t => tagged "type" "date" "value" (ofInstant t)
  | .suspension s => tagged "type" "suspension" "value" (toName s)
  | .delegation s => tagged "type" "delegation" "value" (toName s)

/-! ## Tables -/

/-- Reads an object by dimension. -/
def table? {α : Type} (read? : Json → Option α) : Json → Option (Table Dimension α)
  | .object members => do
    let entries ← members.mapM fun (key, j) => do return (← named? Dimension key, ← read? j)
    return entries.foldl (fun t (d, a) => t.set d a) .empty
  | _ => none

def ofTable {α : Type} (write : α → Json) (t : Table Dimension α) : Json :=
  .object (t.toList.map fun (d, a) => (dimensionName d, write a))

/-- Reads an array of switches, in which repetitions do not count. -/
def flagSet? (j : Json) : Option FlagSet :=
  (list? (ofName? false) j).map fun flags => flags.foldl (fun s f => s.set f ()) .empty

def ofFlagSet (s : FlagSet) : Json := ofList toName (s.toList.map (·.1))

/-! ## Filters of a group -/

def predicateSet? (j : Json) : Option PredicateSet := do
  let r ← Record.of? ["terms", "expressions", "flags", "variables"] j
  return {
    terms := ← r.required? "terms" (table? (list? term?))
    expressions := ← r.required? "expressions" (table? string?)
    flags := ← r.required? "flags" flagSet?
    variablePredicates := ← r.required? "variables" (list? variablePredicate?) }

def ofPredicateSet (s : PredicateSet) : Json :=
  .object [
    ("terms", ofTable (ofList ofTerm) s.terms),
    ("expressions", ofTable .string s.expressions),
    ("flags", ofFlagSet s.flags),
    ("variables", ofList ofVariablePredicate s.variablePredicates)]

end Worklist.Wire
