import Worklist.Evaluation

/-!
# Stores of tasks

A store holds tasks in the order of their insertion and knows what expressions resolve to.  It
answers compiled queries: a listing is sorted by the sort keys, ties keeping the order of the
store, and cut to a page.  A query that is executed first has its page limited by the settings, and
of a failure of the backend only learns what `BackendError.toQueryError` tells.
-/

namespace Worklist

/-! ## Pages -/

/-- A window of a listing. -/
structure Page where
  firstResult : UInt32
  maxResults : UInt32
  deriving DecidableEq

namespace Page

/-- The whole listing. -/
def all : Page := ⟨0, 4294967295⟩

/-- The page with no more results than `limit`. -/
def clamp (p : Page) (limit : UInt32) : Page := { p with maxResults := min p.maxResults limit }

/-- The part of a listing that the page shows. -/
def window {α : Type} (p : Page) (xs : List α) : List α :=
  (xs.drop p.firstResult.toNat).take p.maxResults.toNat

end Page

/-! ## Sorting -/

/-- The order of optional values, an absent one first. -/
def compareOption {α : Type} [Ord α] : Option α → Option α → Ordering
  | none, none => .eq
  | none, some _ => .lt
  | some _, none => .gt
  | some a, some b => compare a b

/-- The order of two tasks by one attribute. -/
def SortProperty.compareTasks (p : SortProperty) (a b : Task) : Ordering :=
  match p with
  | taskId => compare a.id b.id
  | name => compareOption a.name b.name
  | assignee => compareOption a.assignee b.assignee
  | priority => compare a.priority.toInt b.priority.toInt
  | createTime => compare a.createTime b.createTime
  | dueDate => compareOption a.dueDate b.dueDate
  | followUpDate => compareOption a.followUpDate b.followUpDate

/-- The order of two tasks by one sort key. -/
def SortKey.compareTasks (k : SortKey) (a b : Task) : Ordering :=
  let order := k.property.compareTasks a b
  if k.direction = some .descending then order.swap else order

/-- The order of two tasks by several sort keys, the first that tells them apart. -/
def compareByKeys (keys : List SortKey) (a b : Task) : Ordering :=
  keys.foldr (fun k order => (k.compareTasks a b).then order) .eq

/-- Tasks sorted by keys; ties keep their order. -/
def sortTasks (keys : List SortKey) (tasks : List Task) : List Task :=
  tasks.mergeSort fun a b => compareByKeys keys a b != .gt

/-! ## Backends -/

/-- What runs compiled queries. -/
structure Backend where
  list : Criteria → Page → Except BackendError (List Task)
  count : Criteria → Except BackendError Nat

/-- A backend that always fails in the same way. -/
def Backend.failing (e : BackendError) : Backend := ⟨fun _ _ => .error e, fun _ => .error e⟩

/-- Tasks in memory with known expressions. -/
structure Store where
  tasks : List Task
  /-- The latest entry for an expression counts. -/
  expressions : List (String × Resolution)

namespace Store

/-- A store without tasks. -/
def empty : Store := ⟨[], []⟩

def insert (s : Store) (task : Task) : Store := { s with tasks := s.tasks ++ [task] }

/-- Sets what an expression resolves to. -/
def withExpression (s : Store) (expression : String) (r : Resolution) : Store :=
  { s with expressions := (expression, r) :: s.expressions }

/-- Resolves an expression that the store knows. -/
def resolve (s : Store) : ExpressionResolver := fun expression =>
  match s.expressions.lookup expression with
  | some r => .ok r
  | none => .error (.unknownExpression expression)

/-- The tasks that satisfy a compiled query, in the order of the store.  The first task on which
the evaluation fails decides. -/
def matching (s : Store) (c : Criteria) : Except BackendError (List Task) :=
  s.tasks.filterM (c.holds s.resolve)

/-- The store as a backend. -/
def backend (s : Store) : Backend where
  list c page := do return page.window (sortTasks c.sortKeys (← s.matching c))
  count c := do return (← s.matching c).length

end Store

/-! ## Executing -/

/-- Lets the caller see of a backend failure what it may. -/
def Backend.answer {α : Type} (r : Except BackendError α) : Except QueryError α :=
  r.mapError BackendError.toQueryError

/-- Compiles a query and lists one page of its tasks. -/
def Query.executeList (q : Query) (backend : Backend) (identity : IdentityResolver)
    (config : Config) (page : Page) : Except QueryError (List Task) := do
  let c ← q.compile identity config
  Backend.answer (backend.list c (page.clamp config.maxResults))

/-- Compiles a query and counts its tasks. -/
def Query.executeCount (q : Query) (backend : Backend) (identity : IdentityResolver)
    (config : Config) : Except QueryError Nat := do
  let c ← q.compile identity config
  Backend.answer (backend.count c)

/-! ## Memberships -/

/-- Users and the groups that they belong to, one pair for each membership. -/
abbrev Memberships := List (String × String)

/-- The groups of a user in ascending order. -/
def Memberships.groupsOf (m : Memberships) (user : String) : List String :=
  sortedTexts (m.filterMap fun (u, group) => if u = user then some group else none)

end Worklist
