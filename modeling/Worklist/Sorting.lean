/-!
# Orderings of results

The task attributes that results can be sorted by, and the directions.
-/

namespace Worklist

/-- A task attribute to sort by. -/
inductive SortProperty where
  | taskId
  | name
  | assignee
  | priority
  | createTime
  | dueDate
  | followUpDate
  deriving DecidableEq

namespace SortProperty

/-- The name that messages use. -/
def display : SortProperty → String
  | taskId => "id"
  | name => "name"
  | assignee => "assignee"
  | priority => "priority"
  | createTime => "createTime"
  | dueDate => "dueDate"
  | followUpDate => "followUpDate"

def column : SortProperty → String
  | taskId => "RES.ID_"
  | name => "RES.NAME_"
  | assignee => "RES.ASSIGNEE_"
  | priority => "RES.PRIORITY_"
  | createTime => "RES.CREATE_TIME_"
  | dueDate => "RES.DUE_DATE_"
  | followUpDate => "RES.FOLLOW_UP_DATE_"

end SortProperty

inductive Direction where
  | ascending
  | descending
  deriving DecidableEq

def Direction.sql : Direction → String
  | ascending => "ASC"
  | descending => "DESC"

/-- One key to sort by.  Its direction is absent until it is given. -/
structure SortKey where
  property : SortProperty
  direction : Option Direction
  deriving DecidableEq

end Worklist
