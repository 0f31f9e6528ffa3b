import Worklist.Closing
import Worklist.Wire.Predicate

/-!
# Trees, plans and sort keys in JSON

Reading and writing the structure of a query.  A tree is read as it stands: nothing is said about
where its positions lead.
-/

namespace Worklist.Wire

instance : Named Connective := ⟨[.and, .or], Connective.sql⟩

/-! ## Trees -/

/-- A count or position, which fits in 64 bits. -/
def nat? (j : Json) : Option Nat := (integer? 0 (UInt64.size - 1) j).map Int.toNat

def ofNat (n : Nat) : Json := .integer n

def node? (j : Json) : Option Node := do
  let r ← Record.of? ["operator", "predicates", "parent", "children"] j
  return {
    connective := ← r.required? "operator" (ofName? false)
    predicates := ← r.required? "predicates" predicateSet?
    parent := ← r.optional? "parent" nat?
    children := ← r.required? "children" (list? nat?) }

def ofNode (n : Node) : Json :=
  .object [
    ("operator", toName n.connective),
    ("predicates", ofPredicateSet n.predicates),
    ("parent", ofOption ofNat n.parent),
    ("children", ofList ofNat n.children)]

def tree? (j : Json) : Option Tree := do
  let r ← Record.of? ["nodes"] j
  return ⟨(← r.required? "nodes" (list? node?)).toArray⟩

def ofTree (t : Tree) : Json := .object [("nodes", ofList ofNode t.nodes.toList)]

/-! ## Closing plans -/

def closing? (j : Json) : Option Closing := do
  let t ← Tagged.of? "kind" "count" j
  match t.tag with
  | "none" => t.alone? .none
  | "parens" => (t.content? nat?).map .parens
  | _ => none

def ofClosing : Closing → Json
  | .none => .object [("kind", .string "none")]
  | .parens n => tagged "kind" "parens" "count" (ofNat n)

/-! ## Sort keys -/

def propertyName : SortProperty → String
  | .taskId => "taskId"
  | .name => "name"
  | .assignee => "assignee"
  | .priority => "priority"
  | .createTime => "createTime"
  | .dueDate => "dueDate"
  | .followUpDate => "followUpDate"

instance : Named SortProperty :=
  ⟨[.taskId, .name, .assignee, .priority, .createTime, .dueDate, .followUpDate], propertyName⟩

instance : Named Direction := ⟨[.ascending, .descending], Direction.sql⟩

def sortKey? (j : Json) : Option SortKey := do
  let r ← Record.of? ["property", "direction"] j
  return ⟨← r.required? "property" (ofName? false), ← r.optional? "direction" (ofName? false)⟩

def ofSortKey (k : SortKey) : Json :=
  .object [("property", toName k.property), ("direction", ofOption toName k.direction)]

end Worklist.Wire
