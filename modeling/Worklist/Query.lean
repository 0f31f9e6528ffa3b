import Worklist.Predicate.Candidate
import Worklist.Tree

/-!
# Building a query

A query is a tree of groups, the group that calls currently write to, and the sort keys.

* Groups are opened below the current one and closed again by the call for their connective.
* Filters go to the current group, under the connective of that group.
* Sort keys are added at the root and then given a direction.

A call that fails leaves the query as it was: it returns an error in place of a query.  `Edit`
lists the calls, and `Query.Reachable` holds of the queries that calls and merges can build.
-/

namespace Worklist

/-- A query under construction. -/
structure Query where
  tree : Tree
  current : NodeId
  sortKeys : List SortKey
  deriving DecidableEq, BEq

namespace Query

/-- A query without filters. -/
def new : Query := ⟨.new, Tree.root, []⟩

instance : Inhabited Query := ⟨new⟩

/-- The group that calls write to. -/
def group (q : Query) : Node := q.tree.node q.current

/-- The filters of the current group. -/
def predicates (q : Query) : PredicateSet := q.group.predicates

def isAtRoot (q : Query) : Bool := q.current == Tree.root

/-! ## Groups -/

/-- Opens a group below the current one. -/
def openGroup (q : Query) (c : Connective) : Query :=
  { q with tree := q.tree.addChild q.current c, current := q.tree.size }

/-- Closes the current group, which must have the connective of the call. -/
def closeGroup (q : Query) (c : Connective) : Except QueryError Query :=
  match q.group.parent with
  | none => .error (.unmatchedEnd c)
  | some parent =>
    if q.group.connective = c then .ok { q with current := parent }
    else .error (.mismatchedEnd c q.group.connective)

/-! ## Filters -/

/-- Changes the filters of the current group. -/
def modify (q : Query) (f : PredicateSet → PredicateSet) : Query :=
  { q with tree := q.tree.modifyPredicates q.current f }

/-- Adds a literal value; a set of values must not be empty. -/
def setTerm (q : Query) (d : Dimension) (t : Term) : Except QueryError Query := do
  if t = .textSet [] then throw (.emptyList d)
  q.predicates.checkCandidates q.group.connective false d
  return q.modify (·.setTerm d t q.group.connective)

/-- Lets an expression stand for the value of a dimension. -/
def setExpression (q : Query) (d : Dimension) (expression : String) : Except QueryError Query := do
  q.predicates.checkCandidates q.group.connective true d
  return q.modify (·.setExpression d expression)

/-- Turns a switch on. -/
def setFlag (q : Query) (f : Flag) : Except QueryError Query := do
  if f = .includeAssignedTasks then q.predicates.checkAssignedTasks
  return q.modify (·.setFlag f)

/-- Adds a predicate on a variable. -/
def addVariable (q : Query) (p : VariablePredicate) : Query := q.modify (·.addVariable p)

/-- Adds a comparison of a variable with a raw value. -/
def compareVariable (q : Query) (name : String) (operator : VariableOperator) (raw : RawValue)
    (scope : VariableScope) (isLocal : Bool) : Except QueryError Query := do
  return q.addVariable (← VariablePredicate.ofRaw name raw operator scope isLocal)

/-! ## Sort keys -/

/-- The last sort key if it waits for its direction. -/
def pendingKey? (q : Query) : Option SortKey :=
  q.sortKeys.getLast?.filter (·.direction.isNone)

/-- Starts a sort key. -/
def orderBy (q : Query) (p : SortProperty) : Except QueryError Query :=
  if !q.isAtRoot then .error (.orderingInsideGroup p q.current)
  else
    match q.pendingKey? with
    | some key => .error (.pendingDirection key.property)
    | none => .ok { q with sortKeys := q.sortKeys ++ [⟨p, none⟩] }

/-- Gives the pending sort key its direction. -/
def setDirection (q : Query) (d : Direction) : Except QueryError Query :=
  match q.pendingKey? with
  | some key => .ok { q with sortKeys := q.sortKeys.dropLast ++ [⟨key.property, some d⟩] }
  | none => .error (.strayDirection d)

end Query

/-! ## Calls -/

/-- A call on a query.  Values fit their dimension, and expressions stand where they may. -/
inductive Edit where
  | openGroup (c : Connective)
  | closeGroup (c : Connective)
  | setTerm (d : Dimension) (t : Term) (fits : t.kind = d.termKind)
  | setExpression (d : Dimension) (expression : String) (allowed : d.supportsExpression = true)
  | setFlag (f : Flag)
  | addVariable (p : VariablePredicate)
  | compareVariable (name : String) (operator : VariableOperator) (raw : RawValue)
      (scope : VariableScope) (isLocal : Bool)
  | orderBy (p : SortProperty)
  | setDirection (d : Direction)

/-- Makes a call. -/
def Query.apply (q : Query) : Edit → Except QueryError Query
  | .openGroup c => .ok (q.openGroup c)
  | .closeGroup c => q.closeGroup c
  | .setTerm d t _ => q.setTerm d t
  | .setExpression d expression _ => q.setExpression d expression
  | .setFlag f => q.setFlag f
  | .addVariable p => .ok (q.addVariable p)
  | .compareVariable name operator raw scope isLocal =>
    q.compareVariable name operator raw scope isLocal
  | .orderBy p => q.orderBy p
  | .setDirection d => q.setDirection d

end Worklist
