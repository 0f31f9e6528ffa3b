import Worklist.Predicate.Set

/-!
# Trees of groups

The nested groups of a query as an array of nodes.  A node names its parent and its children by
their positions, and node zero is the root.

Trees that queries build are proper trees.  A tree that is read from elsewhere can share nodes or
leave some out of reach, so every operation is total: a position outside the array counts as an
empty group, and walks go no deeper than there are nodes.
-/

namespace Worklist

/-- The position of a group in its tree. -/
abbrev NodeId := Nat

/-- One group: how it combines its filters, the filters, and its place in the tree. -/
structure Node where
  connective : Connective
  predicates : PredicateSet
  parent : Option NodeId
  children : List NodeId
  deriving DecidableEq, BEq

/-- A group without filters and without children. -/
def Node.new (c : Connective) (parent : Option NodeId) : Node := ⟨c, .empty, parent, []⟩

instance : Inhabited Node := ⟨Node.new .and none⟩

/-- A group without children. -/
def Node.isLeaf (n : Node) : Bool := n.children.isEmpty

/-- Groups by position, the root first. -/
structure Tree where
  nodes : Array Node
  deriving DecidableEq, BEq

namespace Tree

/-- The position of the root. -/
def root : NodeId := 0

/-- A tree with nothing but a root. -/
def new : Tree := ⟨#[Node.new .and none]⟩

instance : Inhabited Tree := ⟨new⟩

def size (t : Tree) : Nat := t.nodes.size

/-- The group at a position, if there is one. -/
def get? (t : Tree) (id : NodeId) : Option Node := t.nodes[id]?

/-- The group at a position. -/
def node (t : Tree) (id : NodeId) : Node := t.nodes[id]?.getD default

/-! ## Changes -/

/-- Changes the filters of one group. -/
def modifyPredicates (t : Tree) (id : NodeId) (f : PredicateSet → PredicateSet) : Tree :=
  ⟨t.nodes.modify id fun n => { n with predicates := f n.predicates }⟩

/-- Adds an empty group as the last child of `parent`; its position is the old size. -/
def addChild (t : Tree) (parent : NodeId) (c : Connective) : Tree :=
  let nodes := t.nodes.modify parent fun n => { n with children := n.children ++ [t.size] }
  ⟨nodes.push (Node.new c (some parent))⟩

/-- Copies the groups on a stack, each below the group of this tree that stands beside it, and then
the groups below them.  No more than `fuel` groups are copied. -/
def graftAll (source : Tree) : Nat → List (NodeId × NodeId) → Tree → Tree
  | _, [], t => t
  | 0, _ :: _, t => t
  | fuel + 1, (id, parent) :: stack, t =>
    let n := source.node id
    let copy := t.size
    graftAll source fuel (n.children.map (·, copy) ++ stack)
      ((t.addChild parent n.connective).modifyPredicates copy fun _ => n.predicates)

/-- Copies a subtree of another tree below `parent`. -/
def graft (t : Tree) (parent : NodeId) (source : Tree) (id : NodeId) : Tree :=
  graftAll source source.size [(id, parent)] t

/-! ## Walks -/

/-- The groups from `id` downwards in pre-order, at most `depth` levels below it, before the
groups in `later`. -/
def visit (t : Tree) : Nat → NodeId → List NodeId → List NodeId
  | 0, id, later => id :: later
  | depth + 1, id, later => id :: (t.node id).children.foldr (visit t depth) later

/-- The groups of a subtree in pre-order. -/
def subtree (t : Tree) (id : NodeId) : List NodeId := t.visit t.size id []

/-- All groups that the root leads to, in pre-order. -/
def preorder (t : Tree) : List NodeId := t.subtree root

/-- The number of parents above a group, counting no further than `fuel`. -/
def depthWithin (t : Tree) : Nat → NodeId → Nat
  | 0, _ => 0
  | fuel + 1, id =>
    match (t.node id).parent with
    | some parent => t.depthWithin fuel parent + 1
    | none => 0

/-- The number of parents above a group. -/
def depth (t : Tree) (id : NodeId) : Nat := t.depthWithin t.size id

/-! ## Filters -/

/-- Whether a group or one below it has a filter. -/
def subtreeHasFilters (t : Tree) (id : NodeId) : Bool :=
  (t.subtree id).any fun i => !(t.node i).predicates.isEmpty

/-- Whether no group has a filter. -/
def hasNoFilters (t : Tree) : Bool := t.nodes.all fun n => n.predicates.isEmpty

end Tree

end Worklist
