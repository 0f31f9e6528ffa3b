import Worklist.Instant.Text
import Worklist.Predicate.Dimension
import Worklist.Text.Quoted

/-!
# Literal values of filters

The values that a dimension can be compared with, and which of them a dimension takes.
-/

namespace Worklist

/-- Whether a task is active or suspended. -/
inductive SuspensionState where
  | active
  | suspended
  deriving DecidableEq

/-- The name that messages use. -/
def SuspensionState.display : SuspensionState → String
  | active => "Active"
  | suspended => "Suspended"

/-- The state of a delegated task. -/
inductive DelegationState where
  | pending
  | resolved
  deriving DecidableEq

namespace DelegationState

/-- The text that is stored. -/
def text : DelegationState → String
  | pending => "PENDING"
  | resolved => "RESOLVED"

/-- The name that messages use. -/
def display : DelegationState → String
  | pending => "Pending"
  | resolved => "Resolved"

end DelegationState

/-- A literal value of a dimension. -/
inductive Term where
  | text (s : String)
  | textSet (ss : List String)
  | int (n : Int32)
  | date (t : Instant)
  | suspension (s : SuspensionState)
  | delegation (s : DelegationState)
  deriving DecidableEq

/-- The form in which messages show a value. -/
def Term.display : Term → String
  | text s => "Text(" ++ Text.quoted s ++ ")"
  | textSet ss => "TextSet([" ++ ", ".intercalate (ss.map Text.quoted) ++ "])"
  | int n => "Int(" ++ toString n.toInt ++ ")"
  | date t => "Date(" ++ t.zuluText ++ ")"
  | suspension s => "Suspension(" ++ s.display ++ ")"
  | delegation s => "Delegation(" ++ s.display ++ ")"

/-- The kinds of literal values. -/
inductive TermKind where
  | text
  | textSet
  | int
  | date
  | suspension
  | delegation
  deriving DecidableEq

def Term.kind : Term → TermKind
  | text _ => .text
  | textSet _ => .textSet
  | int _ => .int
  | date _ => .date
  | suspension _ => .suspension
  | delegation _ => .delegation

/-- The kind of literal value that a dimension takes. -/
def Dimension.termKind (d : Dimension) : TermKind :=
  match d.arity, d.field with
  | .set, _ => .textSet
  | _, .priority => .int
  | _, .createTime => .date
  | _, .dueDate => .date
  | _, .followUpDate => .date
  | _, .suspended => .suspension
  | _, .delegationState => .delegation
  | _, _ => .text

end Worklist
