import Worklist.Closing
import Worklist.Config
import Worklist.Query.Check

/-!
# Compiled queries

A query that passed its checks, with the closing plan of its groups and the groups that its
candidate users belong to.
-/

namespace Worklist

/-- Tells the groups that a user belongs to. -/
abbrev IdentityResolver := String → List String

/-- Texts in ascending order without repetitions. -/
def sortedTexts (texts : List String) : List String :=
  texts.eraseDups.mergeSort fun a b => decide (a ≤ b)

/-- A compiled query. -/
structure Criteria where
  tree : Tree
  /-- The groups below the root in pre-order, with what closes behind each. -/
  slots : List Slot
  sortKeys : List SortKey
  /-- The candidate users that were expanded, each with the groups of that user. -/
  candidateGroups : List (String × List String)
  likeEscape : Char
  deriving DecidableEq

namespace Criteria

/-- The groups that a candidate user was expanded to. -/
def groupsOf (c : Criteria) (user : String) : List String :=
  (c.candidateGroups.lookup user).getD []

/-- The numbers of brackets that open and close. -/
def bracketCounts (c : Criteria) : Nat × Nat :=
  (c.slots.length, c.slots.foldr (fun slot closed => slot.closing.count + closed) 0)

end Criteria

/-- The user of a literal candidate user. -/
def Term.user? : Term → Option String
  | text s => some s
  | _ => none

/-- The literal candidate users of a tree. -/
def Tree.candidateUsers (t : Tree) : List String :=
  t.nodes.toList.flatMap fun n => (n.predicates.termsOf .candidateUser).filterMap Term.user?

/-- A sort key that has a direction, ascending if it had none. -/
def SortKey.directed (k : SortKey) : SortKey := ⟨k.property, some (k.direction.getD .ascending)⟩

/-- Checks a query and compiles it. -/
def Query.compile (q : Query) (identity : IdentityResolver) (config : Config) :
    Except QueryError Criteria := do
  Check.runAll q Check.standard
  let slots ← q.tree.closingPlan
  let users := if config.expandCandidateGroups then sortedTexts q.tree.candidateUsers else []
  return {
    tree := q.tree
    slots
    sortKeys := q.sortKeys.map SortKey.directed
    candidateGroups := users.map fun user => (user, sortedTexts (identity user))
    likeEscape := config.likeEscape }

end Worklist
