/-!
# Settings

The settings that compiling and running a query share.
-/

namespace Worklist

/-- Settings, with their defaults. -/
structure Config where
  /-- The most tasks that one page can hold. -/
  maxResults : UInt32 := 10000
  /-- The escape character of LIKE patterns. -/
  likeEscape : Char := '\\'
  /-- Whether a candidate user also stands for the groups of that user. -/
  expandCandidateGroups : Bool := true
  deriving DecidableEq

/-- Why settings are refused. -/
inductive ConfigError where
  /-- The document is no JSON text of settings. -/
  | unreadable
  | zeroMaxResults
  | wildcardEscape (escape : Char)
  deriving DecidableEq

/-- The message of a refusal, where it has a fixed one. -/
def ConfigError.message? : ConfigError → Option String
  | unreadable => none
  | zeroMaxResults => some "Configuration error: max_results must be greater than zero"
  | wildcardEscape escape =>
    some ("Configuration error: '" ++ escape.toString ++
      "' is a LIKE wildcard and cannot be the escape character")

/-- Settings that are in order: pages can hold tasks and the escape character is no wildcard. -/
def Config.check (c : Config) : Except ConfigError Config :=
  if c.maxResults = 0 then .error .zeroMaxResults
  else if c.likeEscape = '%' ∨ c.likeEscape = '_' then .error (.wildcardEscape c.likeEscape)
  else .ok c

end Worklist
