import Worklist.Query

/-!
# Merging queries

A query extended by another one.  At the root the extending query wins for every dimension that it
has a value or an expression for; its variables come first and replace those with the same key.
Switches are united, except that assigned tasks are only included if the merged root has a filter
on candidates.  The groups and sort keys of the extending query follow those of the base, where a
property that is already sorted by is not repeated.
-/

namespace Worklist

namespace PredicateSet

/-- The variables of the extending group, then those of the base that it does not replace. -/
def mergeVariables (base ext : List VariablePredicate) : List VariablePredicate :=
  ext ++ base.filter fun p => !ext.any fun r => r.mergeKey == p.mergeKey

/-- Everything but the inclusion of assigned tasks, before any check. -/
def mergeFilters (base ext : PredicateSet) : PredicateSet :=
  let source (d : Dimension) := if ext.hasPredicate d then ext else base
  { terms := .ofFn fun d => (source d).terms.get? d
    expressions := .ofFn fun d =>
      if (source d).terms.contains d then none else (source d).expressions.get? d
    flags := .ofFn fun f =>
      if f ≠ .includeAssignedTasks ∧ (base.hasFlag f || ext.hasFlag f) then some () else none
    variablePredicates := mergeVariables base.variablePredicates ext.variablePredicates }

/-- The filters of two root groups as one. -/
def merge (base ext : PredicateSet) : Except QueryError PredicateSet := do
  let merged := base.mergeFilters ext
  merged.checkExclusion
  if base.hasFlag .includeAssignedTasks || ext.hasFlag .includeAssignedTasks then
    merged.checkAssignedTasks
    return merged.setFlag .includeAssignedTasks
  else return merged

end PredicateSet

namespace Tree

/-- Copies the groups below the root of another tree below the root of this one. -/
def graftBelowRoot (t source : Tree) : Tree :=
  (source.node root).children.foldl (fun t id => t.graft root source id) t

/-- Two trees under one root with given filters: the groups of the first, then those of the
second. -/
def join (base ext : Tree) (rootPredicates : PredicateSet) : Tree :=
  ((new.modifyPredicates root fun _ => rootPredicates).graftBelowRoot base).graftBelowRoot ext

end Tree

/-- The sort keys of the base, then those of the extension for properties not sorted by yet. -/
def mergeSortKeys (base ext : List SortKey) : List SortKey :=
  ext.foldl (fun keys key => if keys.any (·.property == key.property) then keys else keys ++ [key])
    base

/-- A query extended by another; both must have closed their groups. -/
def Query.extend (base ext : Query) : Except QueryError Query := do
  if !base.isAtRoot || !ext.isAtRoot then throw .mergeInsideGroup
  let predicates ← (base.tree.node Tree.root).predicates.merge (ext.tree.node Tree.root).predicates
  return { tree := base.tree.join ext.tree predicates
           current := Tree.root
           sortKeys := mergeSortKeys base.sortKeys ext.sortKeys }

/-- The queries that calls and merges can build. -/
inductive Query.Reachable : Query → Prop where
  | new : Reachable .new
  | apply {q r : Query} (e : Edit) : Reachable q → q.apply e = .ok r → Reachable r
  | extend {base ext r : Query} :
      Reachable base → Reachable ext → base.extend ext = .ok r → Reachable r

end Worklist
