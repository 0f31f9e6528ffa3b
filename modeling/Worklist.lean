import Worklist.Binary64
import Worklist.Binary64.Integral
import Worklist.Binary64.Rounding
import Worklist.Binary64.Shortest
import Worklist.Closing
import Worklist.Config
import Worklist.Connective
import Worklist.Criteria
import Worklist.Criteria.Clause
import Worklist.Error
import Worklist.Evaluation
import Worklist.Instant
import Worklist.Instant.Calendar
import Worklist.Instant.Text
import Worklist.Json
import Worklist.Json.Number
import Worklist.Json.Reader
import Worklist.Json.Writer
import Worklist.Like.Cache
import Worklist.Like.Expression
import Worklist.Like.Pattern
import Worklist.Power
import Worklist.Predicate.Candidate
import Worklist.Predicate.Dimension
import Worklist.Predicate.Flag
import Worklist.Predicate.Set
import Worklist.Predicate.Term
import Worklist.Proofs.Outcome
import Worklist.Proofs.Tree.Fold
import Worklist.Proofs.Tree.Forest
import Worklist.Proofs.Tree.Graft
import Worklist.Proofs.Tree.Plan
import Worklist.Query
import Worklist.Query.Check
import Worklist.Query.Merge
import Worklist.Sorting
import Worklist.Sql.Condition
import Worklist.Store
import Worklist.Table
import Worklist.Task
import Worklist.Text.CaseMap
import Worklist.Text.CharSet
import Worklist.Text.Fold
import Worklist.Text.Lower
import Worklist.Text.Quoted
import Worklist.Tree
import Worklist.Value
import Worklist.Value.Compare
import Worklist.Value.Raw
import Worklist.Variable
import Worklist.Variable.Matching
import Worklist.Variable.Operator
import Worklist.Wire.Config
import Worklist.Wire.Predicate
import Worklist.Wire.Query
import Worklist.Wire.Record
import Worklist.Wire.Task
import Worklist.Wire.Value
import Worklist.Proofs.Query.Step
import Worklist.Proofs.Query.Layout
import Worklist.Proofs.Predicate.Entries
import Worklist.Proofs.Predicate.Sound
import Worklist.Proofs.Predicate.United
import Worklist.Proofs.Query.Extend
import Worklist.Proofs.Criteria.Compile
import Worklist.Proofs.Criteria.Filters
import Worklist.Proofs.Criteria.Nesting
import Worklist.Proofs.Sql.Reading
import Worklist.Proofs.Criteria.Skeleton
import Worklist.Proofs.Sql.Semantics
import Worklist.Proofs.Sql.Marks
import Worklist.Proofs.Sql.ReadBack
import Worklist.Proofs.Criteria.Readable
import Worklist.Proofs.Criteria.Encoding
import Worklist.Proofs.Criteria.Atoms
import Worklist.Proofs.Tree.Groups
import Worklist.Proofs.Tree.Depth
import Worklist.Proofs.Tree.Ends
import Worklist.Proofs.Tree.Brackets
import Worklist.Proofs.Tree.Outcomes
import Worklist.Proofs.Query.Frames
import Worklist.Proofs.Criteria.Checked
import Worklist.Proofs.Criteria.Expansion
import Worklist.Proofs.Criteria.Outcomes
import Worklist.Proofs.Criteria.Conjunction
import Worklist.Proofs.Criteria.Failures
import Worklist.Proofs.Criteria.Oblivious
import Worklist.Proofs.Criteria.Placeholders
import Worklist.Proofs.Sql.Quotes
import Worklist.Proofs.Criteria.Literals
import Worklist.Proofs.Query.Directions
import Worklist.Proofs.Query.Nested
import Worklist.Proofs.Query.Merged
import Worklist.Proofs.Like.Cache
import Worklist.Proofs.Criteria.Monotone
import Worklist.Proofs.Tree.Change
import Worklist.Proofs.Query.Assigned
import Worklist.Proofs.Criteria.Widening
import Worklist.Proofs.Criteria.Candidates
import Worklist.Proofs.Criteria.Additions
import Worklist.Proofs.Json.Scalars
import Worklist.Proofs.Json.RoundTrip
import Worklist.Proofs.Wire.Record
import Worklist.Proofs.Wire.Value
import Worklist.Proofs.Wire.Predicate
import Worklist.Proofs.Wire.Query
import Worklist.Proofs.Wire.RoundTrip
import Worklist.Proofs.Instant.Calendar
import Worklist.Proofs.Instant.Text
import Worklist.Proofs.Wire.Variable
import Worklist.Proofs.Query.Arena
import Worklist.Proofs.Tree.Bounds
import Worklist.Proofs.Tree.Search
import Worklist.Proofs.Tree.Turns
import Worklist.Proofs.Wire.Positions
import Worklist.Proofs.Binary64.Exact
import Worklist.Proofs.Binary64.Integral
import Worklist.Proofs.Variable.Numbers
import Worklist.Proofs.Like.Matching
import Worklist.Proofs.Like.Regex
import Worklist.Proofs.Like.Expression
import Worklist.Proofs.Predicate.Replay
import Worklist.Proofs.Sorting.Order
import Worklist.Proofs.Sorting.Stable
import Worklist.Proofs.Sorting.Merged
import Worklist.Proofs.Store.Listing
import Worklist.Proofs.Text.Case
import Worklist.Proofs.Like.Literal
