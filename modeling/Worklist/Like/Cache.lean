import Worklist.Like.Pattern

/-!
# Cached patterns

A store of patterns that are ready to be matched, under a key made of the case switch, the escape
character and the pattern text.  A full store is emptied before the next pattern goes in, so it
never holds more than `capacity` patterns.  Matching through the store gives what matching without
it gives.

A reader makes patterns ready.  It may refuse a pattern, which is then not kept; the reader of this
library refuses none.
-/

namespace Worklist.Like

/-- From the case switch, the escape character and the text to a pattern, or a reason why there is
none. -/
abbrev Reader (ε : Type) := Bool → Char → String → Except ε Pattern

/-- The reader that takes every text as a pattern. -/
def Pattern.read : Reader Empty := fun ignoreCase escape text =>
  .ok (.ofText ignoreCase escape text)

/-- Patterns by key, the latest first. -/
structure Cache where
  entries : List (String × Pattern)

namespace Cache

/-- The number of patterns held before the store is emptied. -/
def capacity : Nat := 1024

/-- A store without patterns. -/
def empty : Cache := ⟨[]⟩

def size (cache : Cache) : Nat := cache.entries.length

/-- The key of a pattern: a digit for the case switch, the escape character, the text. -/
def key (ignoreCase : Bool) (escape : Char) (pattern : String) : String :=
  String.ofList ((if ignoreCase then '1' else '0') :: escape :: pattern.toList)

/-- The pattern under a key. -/
def find? (cache : Cache) (k : String) : Option Pattern := cache.entries.lookup k

/-- Adds a pattern, emptying a full store first. -/
def insert (cache : Cache) (k : String) (p : Pattern) : Cache :=
  ⟨(k, p) :: if capacity ≤ cache.size then [] else cache.entries⟩

/-- Drops all patterns. -/
def clear (_ : Cache) : Cache := empty

/-- Matches a value through the store and keeps a pattern that the reader does not refuse. -/
def tryMatch {ε : Type} (read : Reader ε) (cache : Cache) (value pattern : String) (escape : Char)
    (ignoreCase : Bool) : Except ε Bool × Cache :=
  let k := key ignoreCase escape pattern
  match cache.find? k with
  | some p => (.ok (p.accepts value), cache)
  | none =>
    match read ignoreCase escape pattern with
    | .ok p => (.ok (p.accepts value), cache.insert k p)
    | .error e => (.error e, cache)

/-- Matches a value through the store and keeps the pattern for later. -/
def likeMatches (cache : Cache) (value pattern : String) (escape : Char) (ignoreCase : Bool) :
    Bool × Cache :=
  match cache.tryMatch Pattern.read value pattern escape ignoreCase with
  | (.ok hit, cache) => (hit, cache)

end Cache

end Worklist.Like
