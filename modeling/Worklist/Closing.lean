import Worklist.Error
import Worklist.Tree

/-!
# Closing plans

A nested condition is written as one line: each group below the root opens a bracket when it is
entered, and the brackets that close are written behind the last group that they enclose.  The
plan lists the groups in the order in which they open, each with the number of brackets that close
behind it.

The planner walks depth first with a stack of steps and enters every group at most once, so it
also ends on trees whose nodes are shared or lead back to themselves.  Its fuel is the number of
steps that can ever be on the stack.
-/

namespace Worklist

/-- What is written behind the filters of a group. -/
inductive Closing where
  /-- The group stays open for its children. -/
  | none
  /-- This many brackets close. -/
  | parens (count : Nat)
  deriving DecidableEq

namespace Closing

def count : Closing → Nat
  | none => 0
  | parens n => n

/-- One more bracket. -/
def bump (c : Closing) : Closing := parens (c.count + 1)

end Closing

/-- A group of the plan and what closes behind it. -/
structure Slot where
  group : NodeId
  closing : Closing
  deriving DecidableEq

namespace ClosingPlan

/-- A step of the walk. -/
inductive Step where
  | enter (id : NodeId)
  | leave
  deriving DecidableEq

/-- One more bracket behind the group that was entered last; the plan is given backwards. -/
def bumpLast : List Slot → List Slot
  | [] => []
  | slot :: slots => { slot with closing := slot.closing.bump } :: slots

/-- Runs the steps on the stack.  The plan so far is given backwards. -/
def run (t : Tree) : Nat → List Step → Array Bool → List Slot → Except QueryError (List Slot)
  | _, [], _, slots => .ok slots
  | 0, _ :: _, _, slots => .ok slots
  | fuel + 1, .leave :: stack, visited, slots => run t fuel stack visited (bumpLast slots)
  | fuel + 1, .enter id :: stack, visited, slots =>
    if visited[id]?.getD false then run t fuel stack visited slots
    else
      let node := t.node id
      if node.isLeaf && node.predicates.isEmpty then .error .emptyGroup
      else
        let stack := node.children.map .enter ++ .leave :: stack
        run t fuel stack (visited.setIfInBounds id true) (⟨id, .none⟩ :: slots)

/-- The number of steps that a walk can take. -/
def fuelFor (t : Tree) : Nat :=
  t.nodes.toList.foldr (fun n steps => n.children.length + 1 + steps)
    (t.node Tree.root).children.length

end ClosingPlan

/-- The closing plan of a tree, unless a group without children has no filter. -/
def Tree.closingPlan (t : Tree) : Except QueryError (List Slot) :=
  let start := (t.node root).children.map ClosingPlan.Step.enter
  let visited := Array.replicate t.size false
  (ClosingPlan.run t (ClosingPlan.fuelFor t) start visited []).map List.reverse

end Worklist
