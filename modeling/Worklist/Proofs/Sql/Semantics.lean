import Worklist.Like.Pattern
import Worklist.Proofs.Sql.Truth
import Worklist.Sql.Condition

/-!
# The meaning of SQL conditions

Conditions evaluated over rows, in three-valued logic.  A row gives its
columns by their names, and a column that it does not have is null.  A
comparison with null is unknown, a row of a subquery counts only if its
conditions hold, and `EXISTS` and `IS NULL` are always known.

* `Condition.truth` is the evaluation.  What does not follow from the text of
  a condition stands in `Database`: the rows of the other tables, what `UPPER`
  makes of a text, and what the expressions stand for.
* A mark is worth the parameter that is bound to it, which `Param.datum` turns
  into a value.
-/

namespace Worklist.Sql

/-! ## Values -/

/-- A value of a column. -/
inductive Datum where
  | null
  | text (s : String)
  | int (n : Int64)
  | double (x : Binary64)
  | bool (b : Bool)
  | date (t : Instant)
  deriving DecidableEq

/-- Columns by their names. -/
abbrev Row := List (String × Datum)

/-- The value of a column, null if the row does not have it. -/
def Row.column (r : Row) (name : String) : Datum := (r.lookup name).getD .null

/-- What the conditions of a statement are evaluated over, besides the row of the task. -/
structure Database where
  rows : Source → List Row
  /-- What `UPPER` makes of a text. -/
  upper : String → String
  /-- What an expression stands for. -/
  resolve : String → Datum

namespace Datum

def ofText : Option String → Datum
  | some s => text s
  | none => null

def ofDate : Option Instant → Datum
  | some t => date t
  | none => null

/-- The order of two values; null and values of different types have none. -/
def order? : Datum → Datum → Option Ordering
  | text s, text t => some (compare s t)
  | int m, int n => some (compare m.toInt n.toInt)
  | double x, double y => x.compare? y
  | bool a, bool b => some (compare a b)
  | date s, date t => some (compare s t)
  | _, _ => none

end Datum

/-- Whether a relation holds of values in a given order. -/
def Relation.accepts (r : Relation) (order : Ordering) : Bool :=
  match r with
  | eq => order == .eq
  | ne => order != .eq
  | lt => order == .lt
  | gt => order == .gt
  | ge => order != .lt
  | le => order != .gt

namespace Relation

section Lawful

variable {α : Type} [Ord α] [Std.LawfulEqOrd α] [BEq α] [LawfulBEq α]

theorem accepts_eq (a b : α) : eq.accepts (compare a b) = (a == b) := by
  rw [accepts, Bool.eq_iff_iff, beq_iff_eq, beq_iff_eq]
  exact Std.LawfulEqOrd.compare_eq_iff_eq

theorem accepts_ne (a b : α) : ne.accepts (compare a b) = (a != b) := by
  rw [bne, ← accepts_eq, accepts, accepts, bne]

end Lawful

theorem accepts_ge (m n : Int) : ge.accepts (compare m n) = decide (n ≤ m) := by
  rw [accepts, Bool.eq_iff_iff, bne_iff_ne, decide_eq_true_iff]
  exact Int.compare_ne_lt

theorem accepts_le (m n : Int) : le.accepts (compare m n) = decide (m ≤ n) := by
  rw [accepts, Bool.eq_iff_iff, bne_iff_ne, decide_eq_true_iff]
  exact Int.compare_ne_gt

end Relation

/-- A comparison of two values. -/
def Relation.truth (r : Relation) (x y : Datum) : Truth :=
  match x.order? y with
  | some order => .ofBool (r.accepts order)
  | none => .unknown

/-- A value matched against a pattern. -/
def likeTruth (escape : Char) : Datum → Datum → Truth
  | .text s, .text pattern => .ofBool (likeMatches s pattern escape false)
  | _, _ => .unknown

instance : Std.LawfulEqOrd Instant where
  eq_of_compare {s t} h := by
    obtain ⟨hseconds, hnanos⟩ := Ordering.then_eq_eq.1 h
    obtain ⟨seconds, nanos⟩ := s
    obtain ⟨seconds', nanos'⟩ := t
    rw [Std.LawfulEqOrd.compare_eq_iff_eq] at hseconds hnanos
    simp only at hseconds hnanos
    rw [hseconds, hnanos]
  compare_self {s} := by
    refine Ordering.then_eq_eq.2 ⟨?_, ?_⟩
    · exact Std.LawfulEqOrd.compare_eq_iff_eq.2 rfl
    · exact Std.LawfulEqOrd.compare_eq_iff_eq.2 rfl

/-! ## Conditions -/

/-- The value that a parameter is bound to. -/
def Param.datum (db : Database) : Param → Datum
  | text s => .text s
  | int n => .int n
  | double x => .double x
  | bool b => .bool b
  | date t => .date t
  | expression s => db.resolve s

/-- The value of an expression over a row.  Only single marks are values. -/
def Expr.datum (db : Database) (row : Row) : Expr → Datum
  | column name => row.column name
  | literal s => .text s
  | marks [p] => p.datum db
  | marks _ => .null
  | upper e =>
    match e.datum db row with
    | .text s => .text (db.upper s)
    | _ => .null
  | coalesce first second =>
    match first.datum db row with
    | .null => second.datum db row
    | x => x

mutual

/-- The truth value of a condition over a row.  The rows of a subquery add their columns. -/
def Condition.truth (db : Database) (row : Row) : Condition → Truth
  | .compare left relation right => relation.truth (left.datum db row) (right.datum db row)
  | .like isNegated left right escape =>
    .negatedIf isNegated (likeTruth escape (left.datum db row) (right.datum db row))
  | .isIn isNegated left options =>
    .negatedIf isNegated
      (.any (options.map fun o => Relation.eq.truth (left.datum db row) (o.datum db row)))
  | .isNull isNegated e => .negatedIf isNegated (.ofBool (e.datum db row == .null))
  | .anyRow isNegated source conditions =>
    .negatedIf isNegated (.ofBool ((db.rows source).any fun r =>
      decide (Truth.join .and (truths db (r ++ row) conditions) = .holds)))
  | .bracket connective conditions => .join connective (truths db row conditions)
  | .never => .fails

/-- The truth value of each condition. -/
def truths (db : Database) (row : Row) : List Condition → List Truth
  | [] => []
  | c :: cs => c.truth db row :: truths db row cs

end

/-- A conjunction of conditions holds if all of them do. -/
theorem join_truths {db : Database} {row : Row} {conditions : List Condition} :
    Truth.join .and (truths db row conditions) = .holds ↔
      ∀ c ∈ conditions, c.truth db row = .holds := by
  rw [Truth.join_and_eq_holds]
  induction conditions with
  | nil => simp [truths]
  | cons c cs ih => rw [truths, List.forall_mem_cons, List.forall_mem_cons, ih]

/-- A null test is never unknown. -/
theorem truth_isNull {db : Database} {row : Row} {isNegated : Bool} {e : Expr} {b : Bool}
    (h : (e.datum db row == .null) = b) :
    (Condition.isNull isNegated e).truth db row = .holds ↔ (b = true ↔ isNegated = false) := by
  rw [Condition.truth, h, Truth.negatedIf_ofBool]

end Worklist.Sql
