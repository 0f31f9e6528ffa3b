import Worklist.Like.Pattern

/-!
# Patterns as regular expressions

With a library of regular expressions at hand, a pattern is matched by an expression for it.  The
expression begins with its switches and ends with an anchor, so it has to match the whole value,
and line breaks are characters like all others.  In between it has one part for every item: `.*`
for any run of characters, `.` for exactly one, and the quoted character for a literal.

The library is a parameter.  `Engine.likeMatches` answers what `likeMatches` does with every
library that reads these expressions as they are meant.
-/

namespace Worklist.Like

/-- A library of regular expressions: `quote` writes a character so that it stands for itself, and
`compile` reads an expression as a test of values or gives a reason why it is none. -/
structure Engine (ε : Type) where
  quote : Char → String
  compile : String → Except ε (String → Bool)

namespace Engine

variable {ε : Type}

/-- The parts of the expression for the characters of a pattern. -/
def body (engine : Engine ε) (escape : Char) : List Char → String
  | [] => ""
  | c :: cs =>
    if c = escape then
      match cs with
      | [] => engine.quote escape
      | d :: cs => engine.quote d ++ engine.body escape cs
    else if c = '%' then ".*" ++ engine.body escape cs
    else if c = '_' then "." ++ engine.body escape cs
    else engine.quote c ++ engine.body escape cs

/-- The expression for a pattern. -/
def expression (engine : Engine ε) (ignoreCase : Bool) (escape : Char) (pattern : String) :
    String :=
  (if ignoreCase then "(?is)^" else "(?s)^") ++ engine.body escape pattern.toList ++ "$"

/-- Whether a value matches a pattern by the expression for it, unless the library refuses the
expression. -/
def likeMatches (engine : Engine ε) (value pattern : String) (escape : Char) (ignoreCase : Bool) :
    Except ε Bool := do
  let test ← engine.compile (engine.expression ignoreCase escape pattern)
  return test value

end Engine

end Worklist.Like
