import Worklist.Connective

/-!
# Three-valued logic

The truth values of SQL conditions.  A comparison with an absent value is
unknown, and the connectives are the strong ones: a conjunction fails as soon
as one part fails, a disjunction holds as soon as one part holds.  A row is
selected only if its condition holds, so the lemmas say when a compound
condition holds.
-/

namespace Worklist.Sql

/-- A truth value. -/
inductive Truth where
  | holds
  | unknown
  | fails
  deriving DecidableEq

namespace Truth

/-- The truth value of something that is known. -/
def ofBool (b : Bool) : Truth := if b then holds else fails

def and : Truth → Truth → Truth
  | fails, _ => fails
  | _, fails => fails
  | holds, holds => holds
  | _, _ => unknown

def or : Truth → Truth → Truth
  | holds, _ => holds
  | _, holds => holds
  | fails, fails => fails
  | _, _ => unknown

def not : Truth → Truth
  | holds => fails
  | unknown => unknown
  | fails => holds

/-- Negates a truth value if asked to. -/
def negatedIf (isNegated : Bool) (t : Truth) : Truth := if isNegated then t.not else t

/-- Two truth values joined by a connective. -/
def combined : Connective → Truth → Truth → Truth
  | .and => and
  | .or => or

/-- Truth values joined by a connective; without any the result holds. -/
def join (c : Connective) : List Truth → Truth
  | [] => holds
  | t :: ts => ts.foldl (combined c) t

/-- Whether any of several truth values holds; without any the result fails. -/
def any (ts : List Truth) : Truth := ts.foldr or fails

@[simp] theorem ofBool_eq_holds {b : Bool} : ofBool b = holds ↔ b = true := by
  cases b <;> simp [ofBool]

theorem unknown_ne_holds : unknown ≠ holds := by
  decide

theorem not_ofBool (b : Bool) : (ofBool b).not = ofBool !b := by
  cases b <;> rfl

theorem or_ofBool (a b : Bool) : (ofBool a).or (ofBool b) = ofBool (a || b) := by
  cases a <;> cases b <;> rfl

/-- A negated condition that is not unknown holds if the condition does not. -/
theorem negatedIf_ofBool {isNegated b : Bool} :
    negatedIf isNegated (ofBool b) = holds ↔ (b = true ↔ isNegated = false) := by
  cases isNegated <;> cases b <;> decide

theorem and_eq_holds {s t : Truth} : s.and t = holds ↔ s = holds ∧ t = holds := by
  cases s <;> cases t <;> simp [and]

theorem or_eq_holds {s t : Truth} : s.or t = holds ↔ s = holds ∨ t = holds := by
  cases s <;> cases t <;> simp [or]

theorem any_eq_holds {ts : List Truth} : any ts = holds ↔ holds ∈ ts := by
  induction ts with
  | nil => simp [any]
  | cons t ts ih =>
    rw [any, List.foldr_cons, or_eq_holds, List.mem_cons, ← ih, eq_comm (a := t)]
    rfl

theorem foldl_and_eq_holds {t : Truth} {ts : List Truth} :
    ts.foldl and t = holds ↔ t = holds ∧ ∀ u ∈ ts, u = holds := by
  induction ts generalizing t with
  | nil => simp
  | cons u ts ih => rw [List.foldl_cons, ih, and_eq_holds, List.forall_mem_cons, and_assoc]

theorem foldl_or_eq_holds {t : Truth} {ts : List Truth} :
    ts.foldl or t = holds ↔ t = holds ∨ holds ∈ ts := by
  induction ts generalizing t with
  | nil => simp
  | cons u ts ih =>
    rw [List.foldl_cons, ih, or_eq_holds, List.mem_cons, or_assoc, eq_comm (a := u)]

/-- A conjunction holds if all its parts do. -/
theorem join_and_eq_holds {ts : List Truth} : join .and ts = holds ↔ ∀ t ∈ ts, t = holds := by
  cases ts with
  | nil => simp [join]
  | cons t ts => rw [join, combined, foldl_and_eq_holds, List.forall_mem_cons]

/-- A disjunction of some parts holds if one of them does. -/
theorem join_or_eq_holds {t : Truth} {ts : List Truth} :
    join .or (t :: ts) = holds ↔ t = holds ∨ holds ∈ ts := by
  rw [join, combined, foldl_or_eq_holds]

/-- Joined parts hold exactly if the connective combines what holds to true. -/
theorem join_eq_holds {c : Connective} {ts : List Truth} :
    join c ts = holds ↔ c.combine (ts.map fun t => decide (t = holds)) = true := by
  cases ts with
  | nil => simp [join, Connective.combine]
  | cons t ts =>
    cases c with
    | and =>
      rw [join_and_eq_holds]
      simp [Connective.combine]
    | or =>
      rw [join_or_eq_holds]
      simp [Connective.combine]

end Truth

end Worklist.Sql
