import Worklist.Proofs.Sql.Truth

/-!
# Reading a condition

A condition as tokens, in which the filters of the groups are atoms, and the
grammar that gives it its structure: brackets bind first, then `AND`, then
`OR`, and a clause without tokens is always true.

* `Reading` is the grammar.  `Reads` says what a whole clause stands for.
* `parse` reads tokens from left to right.  It keeps the conjunction that it
  is in, the disjunction around it, and both for every open bracket;
  `parse_of_reads` says that it finds every reading, so that a clause has at
  most one (`Reads.unique`).
* `reading_joined` reads factors that are joined by one connective.
-/

namespace Worklist.Sql

/-- A piece of a condition.  An atom is the filter of a group with a number. -/
inductive Token where
  | atom (group index : Nat)
  | connective (c : Connective)
  | openBracket
  | closeBracket
  deriving DecidableEq

/-- What a condition stands for. -/
inductive Skeleton where
  | always
  | atom (group index : Nat)
  | both (first second : Skeleton)
  | either (first second : Skeleton)
  deriving DecidableEq

namespace Skeleton

/-- The truth value of a condition from those of its atoms. -/
def truth (v : Nat → Nat → Truth) : Skeleton → Truth
  | always => .holds
  | atom group index => v group index
  | both first second => (first.truth v).and (second.truth v)
  | either first second => (first.truth v).or (second.truth v)

/-- Two conditions joined by a connective. -/
def combined : Connective → Skeleton → Skeleton → Skeleton
  | .and => both
  | .or => either

/-- Conditions joined by a connective, from the left. -/
def joined (c : Connective) : List Skeleton → Skeleton
  | [] => always
  | e :: es => es.foldl (combined c) e

theorem truth_joined (v : Nat → Nat → Truth) (c : Connective) (es : List Skeleton) :
    (joined c es).truth v = Truth.join c (es.map (truth v)) := by
  cases es with
  | nil => rfl
  | cons e es =>
    rw [joined, List.map_cons, Truth.join]
    induction es generalizing e with
    | nil => rfl
    | cons f es ih =>
      rw [List.foldl_cons, ih, List.map_cons, List.foldl_cons]
      cases c <;> rfl

end Skeleton

/-! ## The grammar -/

/-- The parts of a condition, from the tightest. -/
inductive Rank where
  | factor
  | conjunction
  | disjunction

/-- What a list of tokens stands for as a part of some rank. -/
inductive Reading : Rank → List Token → Skeleton → Prop where
  | atom (group index : Nat) : Reading .factor [.atom group index] (.atom group index)
  | bracket {ts : List Token} {e : Skeleton} (h : Reading .disjunction ts e) :
      Reading .factor (.openBracket :: (ts ++ [.closeBracket])) e
  | factor {ts : List Token} {e : Skeleton} (h : Reading .factor ts e) :
      Reading .conjunction ts e
  | both {ts us : List Token} {e f : Skeleton} (h : Reading .conjunction ts e)
      (h' : Reading .factor us f) :
      Reading .conjunction (ts ++ .connective .and :: us) (.both e f)
  | conjunction {ts : List Token} {e : Skeleton} (h : Reading .conjunction ts e) :
      Reading .disjunction ts e
  | either {ts us : List Token} {e f : Skeleton} (h : Reading .disjunction ts e)
      (h' : Reading .conjunction us f) :
      Reading .disjunction (ts ++ .connective .or :: us) (.either e f)

/-- What the tokens of a whole clause stand for. -/
inductive Reads : List Token → Skeleton → Prop where
  | nothing : Reads [] .always
  | clause {ts : List Token} {e : Skeleton} (h : Reading .disjunction ts e) : Reads ts e

/-! ## The parser -/

/-- A condition behind one that may be there already. -/
def behind (c : Connective) : Option Skeleton → Skeleton → Skeleton
  | none, e => e
  | some d, e => .combined c d e

/-- Where the parser stands: before a factor or behind one.  `above` is the disjunction so far and
`within` the conjunction so far. -/
inductive Place where
  | before (above within : Option Skeleton)
  | after (above : Option Skeleton) (within : Skeleton)

/-- Reads tokens at a place; the stack holds the places in front of the open brackets. -/
def parseFrom : List Token → Place → List (Option Skeleton × Option Skeleton) → Option Skeleton
  | [], .after above within, [] => some (behind .or above within)
  | .atom group index :: ts, .before above within, stack =>
    parseFrom ts (.after above (behind .and within (.atom group index))) stack
  | .openBracket :: ts, .before above within, stack =>
    parseFrom ts (.before none none) ((above, within) :: stack)
  | .connective .and :: ts, .after above within, stack =>
    parseFrom ts (.before above (some within)) stack
  | .connective .or :: ts, .after above within, stack =>
    parseFrom ts (.before (some (behind .or above within)) none) stack
  | .closeBracket :: ts, .after above within, (above', within') :: stack =>
    parseFrom ts (.after above' (behind .and within' (behind .or above within))) stack
  | _, _, _ => none

/-- Reads the tokens of a clause. -/
def parse : List Token → Option Skeleton
  | [] => some .always
  | ts => parseFrom ts (.before none none) []

/-- What the parser makes of a part of some rank. -/
def Parses (ts : List Token) (e : Skeleton) : Rank → Prop
  | .factor => ∀ above within rest stack,
      parseFrom (ts ++ rest) (.before above within) stack =
        parseFrom rest (.after above (behind .and within e)) stack
  | .conjunction => ∀ above rest stack,
      parseFrom (ts ++ rest) (.before above none) stack = parseFrom rest (.after above e) stack
  | .disjunction => ∃ above within, behind .or above within = e ∧ ∀ rest stack,
      parseFrom (ts ++ rest) (.before none none) stack = parseFrom rest (.after above within) stack

/-- The parser follows the grammar. -/
theorem parses_of_reading {r : Rank} {ts : List Token} {e : Skeleton} (h : Reading r ts e) :
    Parses ts e r := by
  induction h with
  | atom group index =>
    intro above within rest stack
    rw [List.singleton_append, parseFrom]
  | bracket h ih =>
    obtain ⟨above', within', rfl, hparse⟩ := ih
    intro above within rest stack
    rw [List.cons_append, parseFrom, List.append_assoc, hparse, List.singleton_append, parseFrom]
  | factor h ih =>
    intro above rest stack
    exact ih above none rest stack
  | both h h' ih ih' =>
    intro above rest stack
    rw [List.append_assoc, ih, List.cons_append, parseFrom, ih']
    rfl
  | conjunction h ih => exact ⟨none, _, rfl, fun rest stack => ih none rest stack⟩
  | @either ts us e f h h' ih ih' =>
    obtain ⟨above, within, rfl, hparse⟩ := ih
    refine ⟨some (behind .or above within), f, rfl, ?_⟩
    intro rest stack
    rw [List.append_assoc, hparse, List.cons_append, parseFrom, ih']

theorem Reading.ne_nil {r : Rank} {ts : List Token} {e : Skeleton} (h : Reading r ts e) :
    ts ≠ [] := by
  induction h with
  | atom group index => exact List.cons_ne_nil _ _
  | bracket h ih => exact List.cons_ne_nil _ _
  | factor h ih => exact ih
  | both h h' ih ih' => simp
  | conjunction h ih => exact ih
  | either h h' ih ih' => simp

/-- The parser finds every reading. -/
theorem parse_of_reads {ts : List Token} {e : Skeleton} (h : Reads ts e) :
    parse ts = some e := by
  cases h with
  | nothing => rfl
  | clause h =>
    obtain ⟨above, within, rfl, hparse⟩ := parses_of_reading h
    have hfrom := hparse [] []
    rw [List.append_nil, parseFrom] at hfrom
    rw [← hfrom]
    cases ts with
    | nil => exact absurd rfl h.ne_nil
    | cons t ts => rfl

/-- A clause stands for one condition only. -/
theorem Reads.unique {ts : List Token} {e f : Skeleton} (h : Reads ts e) (h' : Reads ts f) :
    e = f := by
  have hparse := parse_of_reads h
  rw [parse_of_reads h'] at hparse
  exact (Option.some.inj hparse).symm

/-! ## Joined factors -/

/-- Lists of tokens with a connective between them. -/
def joinedTokens (c : Connective) : List (List Token) → List Token
  | [] => []
  | ts :: tss => ts ++ tss.flatMap (.connective c :: ·)

/-- The rank of factors that a connective joins. -/
def rank : Connective → Rank
  | .and => .conjunction
  | .or => .disjunction

theorem reading_rank {ts : List Token} {e : Skeleton} (h : Reading .factor ts e)
    (c : Connective) : Reading (rank c) ts e := by
  cases c with
  | and => exact .factor h
  | or => exact .conjunction (.factor h)

theorem reading_disjunction {ts : List Token} {e : Skeleton} {c : Connective}
    (h : Reading (rank c) ts e) : Reading .disjunction ts e := by
  cases c with
  | and => exact .conjunction h
  | or => exact h

theorem reading_combined {ts us : List Token} {e f : Skeleton} {c : Connective}
    (h : Reading (rank c) ts e) (h' : Reading .factor us f) :
    Reading (rank c) (ts ++ .connective c :: us) (.combined c e f) := by
  cases c with
  | and => exact .both h h'
  | or => exact .either h (.factor h')

/-- Factors joined by one connective stand for their conditions joined from the left. -/
theorem reading_joined (c : Connective) {parts : List (List Token × Skeleton)} (hne : parts ≠ [])
    (h : ∀ p ∈ parts, Reading .factor p.1 p.2) :
    Reading .disjunction (joinedTokens c (parts.map (·.1))) (.joined c (parts.map (·.2))) := by
  cases parts with
  | nil => exact absurd rfl hne
  | cons p parts =>
    rw [List.forall_mem_cons] at h
    rw [List.map_cons, List.map_cons, joinedTokens, Skeleton.joined]
    obtain ⟨hp, hparts⟩ := h
    -- the induction keeps what is joined so far at the rank of the connective
    refine reading_disjunction (c := c) ?_
    have hstart := reading_rank hp c
    clear hne
    generalize p.1 = ts at hstart
    generalize p.2 = e at hstart
    induction parts generalizing ts e with
    | nil => simpa using hstart
    | cons q parts ih =>
      rw [List.forall_mem_cons] at hparts
      rw [List.map_cons, List.map_cons, List.flatMap_cons, List.foldl_cons, ← List.append_assoc]
      exact ih hparts.2 _ _ (reading_combined hstart hparts.1)

end Worklist.Sql
