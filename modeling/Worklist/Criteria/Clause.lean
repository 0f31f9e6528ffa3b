import Worklist.Criteria
import Worklist.Sql.Condition

/-!
# WHERE clauses

The condition that a compiled query stands for, as SQL text with parameters.

Every filter of a group is one condition: first the literal values by dimension, then the
expressions, the switches, and the variables.  The clause is written group by group: the root
without brackets, every other group behind a separator and an opening bracket, followed by the
brackets that the closing plan puts behind it.
-/

namespace Worklist

open Sql

/-! ## Filters on candidates -/

/-- The rows that link a task to its candidates and satisfy a further condition. -/
def candidateLink (isNegated : Bool) (link : Condition) : Condition :=
  .anyRow isNegated .identityLinks
    [.compare (.column "I.TASK_ID_") .eq (.column "RES.ID_"),
      .compare (.column "I.TYPE_") .eq (.literal "candidate"), link]

/-- A candidate filter sees unassigned tasks only, unless assigned tasks are included. -/
def candidateCondition (s : PredicateSet) (link : Condition) : Condition :=
  if s.hasFlag .includeAssignedTasks then candidateLink false link
  else .bracket .and [.isNull false (.column "RES.ASSIGNEE_"), candidateLink false link]

/-- A candidate user, directly or through one of the groups of that user. -/
def candidateUserLink (user : Param) (groups : List String) : Condition :=
  let direct := Condition.compare (.column "I.USER_ID_") .eq (.marks [user])
  if groups.isEmpty then direct
  else
    .bracket .or
      [direct, .isIn false (.column "I.GROUP_ID_") (groups.map fun g => .marks [.text g])]

/-! ## Literal values and expressions -/

/-- The values that a literal value binds. -/
def Term.params : Term → List Param
  | text s => [.text s]
  | textSet ss => ss.map .text
  | int n => [.int n.toInt64]
  | date t => [.date t]
  | suspension .active => [.int 1]
  | suspension .suspended => [.int 2]
  | delegation s => [.text s.text]

/-- A user as assignee, as owner, or through any link of the task. -/
def involvedCondition (params : List Param) : Condition :=
  .bracket .or
    [.compare (.column "RES.ASSIGNEE_") .eq (.marks params),
      .compare (.column "RES.OWNER_") .eq (.marks params),
      .anyRow false .identityLinks
        [.compare (.column "I.TASK_ID_") .eq (.column "RES.ID_"),
          .compare (.column "I.USER_ID_") .eq (.marks params)]]

/-- The comparison of a dimension with bound values. -/
def columnCondition (d : Dimension) (params : List Param) (escape : Char) : Condition :=
  let column := Expr.column d.field.column
  let options := params.map fun p => Expr.marks [p]
  match d.comparison with
  | .eq => .compare column .eq (.marks params)
  | .ne => .compare column .ne (.marks params)
  | .like => .like false column (.marks params) escape
  | .notLike => .like true column (.marks params) escape
  | .isIn => .isIn false column options
  | .notIn => .isIn true column options
  | .lt => .compare column .lt (.marks params)
  | .gt => .compare column .gt (.marks params)
  | .ge => .compare column .ge (.marks params)
  | .le => .compare column .le (.marks params)
  | .candidate => candidateLink false (.compare column .eq (.marks params))
  | .involved => involvedCondition params

/-- The condition for bound values of a dimension.  `groups` are the groups that a candidate user
is expanded to. -/
def boundCondition (s : PredicateSet) (d : Dimension) (params : List Param) (groups : List String)
    (escape : Char) : Condition :=
  let options := params.map fun p => Expr.marks [p]
  match d with
  | .candidateUser =>
    candidateCondition s (candidateUserLink (params.headD (.text "")) groups)
  | .candidateGroup =>
    candidateCondition s (.compare (.column "I.GROUP_ID_") .eq (.marks params))
  | .candidateGroupIn => candidateCondition s (.isIn false (.column "I.GROUP_ID_") options)
  | d => columnCondition d params escape

/-- The condition for a literal value. -/
def Criteria.termCondition (c : Criteria) (s : PredicateSet) (d : Dimension) (t : Term) :
    Condition :=
  boundCondition s d t.params (c.groupsOf (t.user?.getD "")) c.likeEscape

/-- The condition for an expression, whose value the backend binds later. -/
def Criteria.expressionCondition (c : Criteria) (s : PredicateSet) (d : Dimension)
    (expression : String) : Condition :=
  boundCondition s d [.expression expression] [] c.likeEscape

/-! ## Switches -/

/-- The condition for a switch that filters tasks. -/
def flagCondition (s : PredicateSet) : Flag → Condition
  | .unassigned => .isNull false (.column "RES.ASSIGNEE_")
  | .assigned => .isNull true (.column "RES.ASSIGNEE_")
  | .withCandidateGroups => candidateCondition s (.isNull true (.column "I.GROUP_ID_"))
  | .withCandidateUsers => candidateCondition s (.isNull true (.column "I.USER_ID_"))
  | .withoutCandidateGroups => candidateLink true (.isNull true (.column "I.GROUP_ID_"))
  | .withoutCandidateUsers => candidateLink true (.isNull true (.column "I.USER_ID_"))
  | .withoutTenantId => .isNull false (.column "RES.TENANT_ID_")
  | .withoutDueDate => .isNull false (.column "RES.DUE_DATE_")
  | .includeAssignedTasks => .never
  | .matchVariableNamesIgnoreCase => .never
  | .matchVariableValuesIgnoreCase => .never

/-! ## Variables -/

/-- The rows of variables that a scope sees. -/
def scopeConditions (scope : VariableScope) (isLocal : Bool) : List Condition :=
  let ofTask := Condition.compare (.column "V.TASK_ID_") .eq (.column "RES.ID_")
  let ofProcess := Condition.compare (.column "V.EXECUTION_ID_") .eq (.column "RES.PROC_INST_ID_")
  let ofCase :=
    Condition.compare (.column "V.CASE_EXECUTION_ID_") .eq (.column "RES.CASE_EXECUTION_ID_")
  let notOfTask := Condition.isNull false (.column "V.TASK_ID_")
  match scope, isLocal with
  | .taskLocal, true => [ofTask]
  | .taskLocal, false => [.bracket .or [ofTask, ofProcess, ofCase]]
  | .processInstance, _ => [notOfTask, ofProcess]
  | .caseExecution, _ => [notOfTask, ofCase]

/-- An expression in the form in which it is compared. -/
def cased (ignoreCase : Bool) (e : Expr) : Expr := if ignoreCase then .upper e else e

/-- The comparison of a stored value by an operator. -/
def operatorCondition (operator : VariableOperator) (left right : Expr) (escape : Char) :
    Condition :=
  match operator with
  | .equals => .compare left .eq right
  | .notEquals => .compare left .ne right
  | .like => .like false left right escape
  | .greaterThan => .compare left .gt right
  | .greaterThanOrEqual => .compare left .ge right
  | .lessThan => .compare left .lt right
  | .lessThanOrEqual => .compare left .le right

/-- Variables of one type. -/
def typeIs (name : String) : Condition := .compare (.column "V.TYPE_") .eq (.literal name)

/-- Variables of one of several types. -/
def typeIn (names : List String) : Condition :=
  .isIn false (.column "V.TYPE_") (names.map .literal)

/-- The bound value of a number. -/
def Numeric.param : Numeric → Param
  | integer n => .int n
  | decimal x => .double x

/-- The conditions on type and value of a stored variable. -/
def valueConditions (p : VariablePredicate) (ignoreCase : Bool) (escape : Char) :
    List Condition :=
  let compared (left : Expr) (param : Param) :=
    operatorCondition p.operator left (.marks [param]) escape
  let long := Expr.column "V.LONG_"
  let double := Expr.column "V.DOUBLE_"
  match p.value with
  | .null =>
    let relation := if p.operator = .notEquals then Relation.ne else .eq
    [.compare (.column "V.TYPE_") relation (.literal "null")]
  | .boolean b => [typeIs "boolean", compared long (.bool b)]
  | .string s =>
    [typeIs "string",
      operatorCondition p.operator (cased ignoreCase (.column "V.TEXT_"))
        (cased ignoreCase (.marks [.text s])) escape]
  | .integer n _ => [typeIn ["short", "integer", "long"], compared long (.int n)]
  | .double x => [typeIs "double", compared double (.double x)]
  | .number n =>
    [typeIn ["short", "integer", "long", "double"], compared (.coalesce long double) n.param]
  | .date t => [typeIs "date", compared long (.date t)]
  | .unsupported _ => [.never]

/-- The condition for a predicate on a variable. -/
def variableCondition (s : PredicateSet) (p : VariablePredicate) (escape : Char) : Condition :=
  let ignoreName := s.hasFlag .matchVariableNamesIgnoreCase
  let named := Condition.compare (cased ignoreName (.column "V.NAME_")) .eq
    (cased ignoreName (.marks [.text p.name]))
  .anyRow false .storedVariables
    (scopeConditions p.scope p.isLocal ++ named ::
      valueConditions p (s.hasFlag .matchVariableValuesIgnoreCase) escape)

/-! ## Groups -/

namespace Criteria

/-- The conditions for the filters of a group itself. -/
def ownConditions (c : Criteria) (s : PredicateSet) : List Condition :=
  (s.terms.toList.flatMap fun (d, ts) => ts.map (c.termCondition s d)) ++
    (s.expressions.toList.map fun (d, e) => c.expressionCondition s d e) ++
    s.filterFlags.map (flagCondition s) ++
    s.variablePredicates.map (variableCondition s · c.likeEscape)

/-- The separator between the parts of a group. -/
def separator (connective : Connective) : String := " " ++ connective.sql ++ " "

/-- The text of the filters of a group itself. -/
def ownText (c : Criteria) (n : Node) : String :=
  joined (separator n.connective) (texts (c.ownConditions n.predicates))

/-- The parameters of the filters of a group itself. -/
def ownParams (c : Criteria) (n : Node) : List Param := paramsOfAll (c.ownConditions n.predicates)

/-- Whether a group has filters of its own to write. -/
def writesOwn (c : Criteria) (n : Node) : Bool := !(c.ownConditions n.predicates).isEmpty

/-- A clause as far as it is written, and which groups wrote filters of their own. -/
structure Draft where
  text : String
  params : Array Param
  hasOwn : Array Bool

/-- The clause when only the root is written. -/
def rootDraft (c : Criteria) : Draft :=
  let root := c.tree.node Tree.root
  { text := c.ownText root
    params := (c.ownParams root).toArray
    hasOwn := #[c.writesOwn root] ++ Array.replicate (c.tree.size - 1) false }

/-- What separates a group from what its parent wrote before: nothing if it comes first. -/
def leadText (c : Criteria) (hasOwn : Array Bool) (id parentId : NodeId) : String :=
  let parent := c.tree.node parentId
  if hasOwn[parentId]?.getD false || parent.children.head? != some id then
    separator parent.connective
  else ""

/-- Writes a group below the root, with what closes behind it. -/
def writeSlot (c : Criteria) (d : Draft) (slot : Slot) : Draft :=
  let n := c.tree.node slot.group
  match n.parent with
  | none => d
  | some parent =>
    { text := d.text ++ c.leadText d.hasOwn slot.group parent ++ "(" ++ c.ownText n ++
        String.ofList (List.replicate slot.closing.count ')')
      params := d.params ++ c.ownParams n
      hasOwn := if c.writesOwn n then d.hasOwn.setIfInBounds slot.group true else d.hasOwn }

/-- A WHERE clause with its parameters. -/
structure Clause where
  text : String
  params : List Param

/-- The WHERE clause of a compiled query. -/
def clause (c : Criteria) : Clause :=
  let d := c.slots.foldl c.writeSlot c.rootDraft
  ⟨d.text, d.params.toList⟩

end Criteria

end Worklist
