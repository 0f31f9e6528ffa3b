/-!
# Points in time

An instant on the UTC time line: whole seconds since the start of 1970 and nanoseconds within the
second.  A leap second is told by the second before it with a billion nanoseconds more, so
instants are ordered first by seconds and then by nanoseconds.
-/

namespace Worklist

/-- A point in time. -/
structure Instant where
  seconds : Int
  nanos : Nat
  deriving DecidableEq, Inhabited

namespace Instant

/-- The start of 1970. -/
def epoch : Instant := ⟨0, 0⟩

/-- Earlier instants come first. -/
instance : Ord Instant where
  compare a b := (compare a.seconds b.seconds).then (compare a.nanos b.nanos)

end Instant

end Worklist
