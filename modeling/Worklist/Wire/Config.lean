import Worklist.Config
import Worklist.Json.Reader
import Worklist.Wire.Record

/-!
# Settings from a document

Reading settings from a JSON text.  Members that are left out have their default, unknown members
are refused, and so are settings that are not in order.
-/

namespace Worklist

namespace Wire

/-- A string of exactly one character. -/
def char? (j : Json) : Option Char := do
  let s ← string? j
  match s.toList with
  | [c] => some c
  | _ => none

/-- A 32-bit count. -/
def uint32? (j : Json) : Option UInt32 :=
  (integer? 0 (UInt32.size - 1) j).map fun n => UInt32.ofNat n.toNat

/-- Settings as they stand in a document. -/
def config? (j : Json) : Option Config := do
  let r ← Record.strict? ["max_results", "like_escape", "expand_candidate_groups"] j
  let defaults : Config := {}
  return {
    maxResults := ← r.orDefault? "max_results" defaults.maxResults uint32?
    likeEscape := ← r.orDefault? "like_escape" defaults.likeEscape char?
    expandCandidateGroups :=
      ← r.orDefault? "expand_candidate_groups" defaults.expandCandidateGroups bool? }

end Wire

/-- Reads settings from a text and checks them. -/
def Config.ofText (s : String) : Except ConfigError Config :=
  match (Json.ofText? s).bind Wire.config? with
  | some c => c.check
  | none => .error .unreadable

end Worklist
