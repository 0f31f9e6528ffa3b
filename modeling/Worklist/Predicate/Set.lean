import Worklist.Connective
import Worklist.Predicate.Flag
import Worklist.Predicate.Term
import Worklist.Variable

/-!
# The filters of one group

A group holds literal values and expressions by dimension, switches, and variable predicates in
the order in which they were added.  A literal value and an expression of the same dimension drive
each other out.
-/

namespace Worklist

/-- The filters of one group. -/
structure PredicateSet where
  terms : Table Dimension (List Term)
  expressions : Table Dimension String
  flags : FlagSet
  variablePredicates : List VariablePredicate
  deriving DecidableEq, BEq

namespace PredicateSet

/-- A group without filters. -/
def empty : PredicateSet := ⟨.empty, .empty, .empty, []⟩

instance : Inhabited PredicateSet := ⟨empty⟩

/-! ## Looking -/

/-- The literal values of a dimension. -/
def termsOf (s : PredicateSet) (d : Dimension) : List Term := (s.terms.get? d).getD []

/-- The expression of a dimension. -/
def expressionOf? (s : PredicateSet) (d : Dimension) : Option String := s.expressions.get? d

def hasFlag (s : PredicateSet) (f : Flag) : Bool := s.flags.contains f

/-- Whether a dimension has a literal value or an expression. -/
def hasPredicate (s : PredicateSet) (d : Dimension) : Bool :=
  s.terms.contains d || s.expressions.contains d

/-- The switches that filter tasks, in their order. -/
def filterFlags (s : PredicateSet) : List Flag :=
  (s.flags.toList.map (·.1)).filter fun f => !f.isModifier

/-- Whether there is a filter on candidates that assigned tasks can be included in. -/
def hasCandidatePredicate (s : PredicateSet) : Bool :=
  Dimension.all.any (fun d => d.isCandidate && s.hasPredicate d) ||
    Flag.all.any fun f => f.isCandidateRelated && s.hasFlag f

/-- Whether the group filters nothing by itself. -/
def isEmpty (s : PredicateSet) : Bool :=
  s.terms.isEmpty && s.expressions.isEmpty && s.variablePredicates.isEmpty && s.filterFlags.isEmpty

/-! ## Adding -/

/-- Whether a new value of a dimension replaces the others. -/
def replaces (d : Dimension) (c : Connective) : Bool := d.arity == .single || c == .and

/-- Adds a literal value under the connective of the group. -/
def setTerm (s : PredicateSet) (d : Dimension) (t : Term) (c : Connective) : PredicateSet :=
  { s with
    terms := s.terms.set d (if replaces d c then [t] else s.termsOf d ++ [t])
    expressions := s.expressions.erase d }

/-- Puts an expression in place of what the dimension had. -/
def setExpression (s : PredicateSet) (d : Dimension) (expression : String) : PredicateSet :=
  { s with
    terms := s.terms.erase d
    expressions := s.expressions.set d expression }

def setFlag (s : PredicateSet) (f : Flag) : PredicateSet := { s with flags := s.flags.set f () }

def addVariable (s : PredicateSet) (p : VariablePredicate) : PredicateSet :=
  { s with variablePredicates := s.variablePredicates ++ [p] }

end PredicateSet

end Worklist
