import Mathlib.Data.String.Basic
import Worklist.Store

/-!
# The order of results

What it means for one task to come before another, without comparisons that compute an `Ordering`.
A sort key looks at one attribute, an absent attribute comes first, and descending keys turn the
order around; of several keys the first that tells two tasks apart decides.

* `Compares` says of a comparison which relation it decides and what it ties, and that it is
  transitive.  There is one lemma for each way in which comparisons are made from others.
* `Precedes` is the order by several keys, and `Tied` are the tasks that none of them tells apart.
* `compares_keys` is the result: comparing by keys decides this order and ties nothing else.
-/

namespace Worklist

/-! ## Comparisons -/

/-- A transitive comparison of everything with everything: what it puts first comes before, and
what it ties is the same. -/
structure Compares {α : Type} (cmp : α → α → Ordering) (before same : α → α → Prop) : Prop where
  trans : Std.TransCmp cmp
  eq_lt_iff : ∀ a b, cmp a b = .lt ↔ before a b
  eq_eq_iff : ∀ a b, cmp a b = .eq ↔ same a b

namespace Compares

variable {α β : Type} {cmp cmp₁ cmp₂ : α → α → Ordering} {before before₁ before₂ : α → α → Prop}
  {same same₁ same₂ : α → α → Prop}

theorem eq_gt_iff (h : Compares cmp before same) (a b : α) : cmp a b = .gt ↔ before b a := by
  have := h.trans
  exact Std.OrientedCmp.gt_iff_lt.trans (h.eq_lt_iff b a)

/-- One of two comes before the other unless they are the same. -/
theorem trichotomy (h : Compares cmp before same) (a b : α) :
    before a b ∨ same a b ∨ before b a := by
  rw [← h.eq_lt_iff, ← h.eq_eq_iff, ← h.eq_gt_iff]
  cases cmp a b <;> simp

theorem asymm (h : Compares cmp before same) {a b : α} (hab : before a b) : ¬before b a := by
  rw [← h.eq_lt_iff] at hab
  rw [← h.eq_gt_iff, hab]
  exact nofun

theorem same_symm (h : Compares cmp before same) {a b : α} (hab : same a b) : same b a := by
  have := h.trans
  rw [← h.eq_eq_iff] at hab ⊢
  exact Std.OrientedCmp.eq_symm hab

theorem not_same (h : Compares cmp before same) {a b : α} (hab : before a b) : ¬same a b := by
  rw [← h.eq_lt_iff] at hab
  rw [← h.eq_eq_iff, hab]
  exact nofun

theorem congr {before' same' : α → α → Prop} (h : Compares cmp before same)
    (hbefore : ∀ a b, before a b ↔ before' a b) (hsame : ∀ a b, same a b ↔ same' a b) :
    Compares cmp before' same' where
  trans := h.trans
  eq_lt_iff a b := (h.eq_lt_iff a b).trans (hbefore a b)
  eq_eq_iff a b := (h.eq_eq_iff a b).trans (hsame a b)

/-- Comparing by what a function gives. -/
theorem on (h : Compares cmp before same) (f : β → α) :
    Compares (fun a b => cmp (f a) (f b)) (fun a b => before (f a) (f b))
      fun a b => same (f a) (f b) where
  trans := by
    have := h.trans
    exact { eq_swap := Std.OrientedCmp.eq_swap, isLE_trans := Std.TransCmp.isLE_trans }
  eq_lt_iff a b := h.eq_lt_iff (f a) (f b)
  eq_eq_iff a b := h.eq_eq_iff (f a) (f b)

/-- Turning the order around. -/
theorem swap (h : Compares cmp before same) :
    Compares (fun a b => (cmp a b).swap) (fun a b => before b a) same where
  trans := by
    have := h.trans
    have hswap : (fun a b => (cmp a b).swap) = fun a b => cmp b a := by
      funext a b
      exact Std.OrientedCmp.eq_swap.symm
    rw [hswap]
    exact Std.TransCmp.opposite
  eq_lt_iff a b := by rw [Ordering.swap_eq_lt, h.eq_gt_iff]
  eq_eq_iff a b := by rw [Ordering.swap_eq_eq, h.eq_eq_iff]

/-- Asking a second comparison where the first one ties. -/
theorem andThen (h₁ : Compares cmp₁ before₁ same₁) (h₂ : Compares cmp₂ before₂ same₂) :
    Compares (fun a b => (cmp₁ a b).then (cmp₂ a b))
      (fun a b => before₁ a b ∨ same₁ a b ∧ before₂ a b) fun a b => same₁ a b ∧ same₂ a b where
  trans := by
    have := h₁.trans
    have := h₂.trans
    exact inferInstanceAs (Std.TransCmp (compareLex cmp₁ cmp₂))
  eq_lt_iff a b := by
    rw [Ordering.then_eq_lt, h₁.eq_lt_iff, h₁.eq_eq_iff, h₂.eq_lt_iff]
  eq_eq_iff a b := by
    rw [Ordering.then_eq_eq, h₁.eq_eq_iff, h₂.eq_eq_iff]

end Compares

/-! ## Attributes -/

/-- The order of values of which some are absent: those come first. -/
def AbsentFirst {α : Type} (before : α → α → Prop) : Option α → Option α → Prop
  | none, some _ => True
  | some a, some b => before a b
  | _, none => False

/-- An instant comes before another if its second does, or its nanosecond within the same second. -/
def Instant.Before (s t : Instant) : Prop :=
  s.seconds < t.seconds ∨ s.seconds = t.seconds ∧ s.nanos < t.nanos

theorem compares_option {α : Type} [Ord α] {before : α → α → Prop}
    (h : Compares (compare : α → α → Ordering) before (· = ·)) :
    Compares compareOption (AbsentFirst before) (· = ·) where
  trans := by
    have : Std.TransOrd α := h.trans
    have heq : compareOption = (compare : Option α → Option α → Ordering) := by
      funext a b
      cases a <;> cases b <;> rfl
    rw [heq]
    infer_instance
  eq_lt_iff a b := by
    rcases a with _ | a <;> rcases b with _ | b <;> simp [compareOption, AbsentFirst, h.eq_lt_iff]
  eq_eq_iff a b := by
    rcases a with _ | a <;> rcases b with _ | b <;> simp [compareOption, h.eq_eq_iff]

theorem compares_string : Compares (compare : String → String → Ordering) (· < ·) (· = ·) where
  trans := inferInstance
  eq_lt_iff _ _ := compare_lt_iff_lt
  eq_eq_iff _ _ := compare_eq_iff_eq

theorem compares_int : Compares (compare : Int → Int → Ordering) (· < ·) (· = ·) where
  trans := inferInstance
  eq_lt_iff _ _ := compare_lt_iff_lt
  eq_eq_iff _ _ := compare_eq_iff_eq

theorem compares_nat : Compares (compare : Nat → Nat → Ordering) (· < ·) (· = ·) where
  trans := inferInstance
  eq_lt_iff _ _ := compare_lt_iff_lt
  eq_eq_iff _ _ := compare_eq_iff_eq

theorem compares_int32 : Compares (fun m n : Int32 => compare m.toInt n.toInt) (· < ·) (· = ·) :=
  (compares_int.on Int32.toInt).congr (fun _ _ => Int32.lt_iff_toInt_lt.symm)
    fun _ _ => Int32.toInt_inj

theorem compares_instant :
    Compares (compare : Instant → Instant → Ordering) Instant.Before (· = ·) :=
  ((compares_int.on Instant.seconds).andThen (compares_nat.on Instant.nanos)).congr
    (fun _ _ => Iff.rfl) fun s t => by rw [Instant.mk.injEq]

/-- The attribute that a property sorts by. -/
def SortProperty.field : SortProperty → TaskField
  | taskId => .id
  | name => .name
  | assignee => .assignee
  | priority => .priority
  | createTime => .createTime
  | dueDate => .dueDate
  | followUpDate => .followUpDate

/-- The order of texts, of numbers and of points in time. -/
def Task.Content.Before : Task.Content → Task.Content → Prop
  | text s, text t => AbsentFirst (· < ·) s t
  | int m, int n => m < n
  | date s, date t => AbsentFirst Instant.Before s t
  | _, _ => False

namespace SortProperty

/-- A task comes before another by one attribute. -/
def Before (p : SortProperty) (a b : Task) : Prop := (a.content p.field).Before (b.content p.field)

/-- Two tasks that have an attribute in common, or lack it both. -/
def Ties (p : SortProperty) (a b : Task) : Prop := a.content p.field = b.content p.field

/-- A property whose attribute is a text is compared as such. -/
theorem compares_text (p : SortProperty) (f : Task → Option String)
    (hf : ∀ a : Task, a.content p.field = .text (f a)) :
    Compares (fun a b => compareOption (f a) (f b)) p.Before p.Ties := by
  refine ((compares_option compares_string).on f).congr (fun a b => ?_) fun a b => ?_
  · rw [Before, hf, hf]
    rfl
  · rw [Ties, hf, hf, Task.Content.text.injEq]

/-- A property whose attribute is a point in time is compared as such. -/
theorem compares_date (p : SortProperty) (f : Task → Option Instant)
    (hf : ∀ a : Task, a.content p.field = .date (f a)) :
    Compares (fun a b => compareOption (f a) (f b)) p.Before p.Ties := by
  refine ((compares_option compares_instant).on f).congr (fun a b => ?_) fun a b => ?_
  · rw [Before, hf, hf]
    rfl
  · rw [Ties, hf, hf, Task.Content.date.injEq]

/-- An attribute that no task lacks is compared as one that may be absent. -/
theorem compares (p : SortProperty) : Compares p.compareTasks p.Before p.Ties := by
  cases p with
  | taskId => exact compares_text taskId (fun a => some a.id) fun _ => rfl
  | name => exact compares_text name Task.name fun _ => rfl
  | assignee => exact compares_text assignee Task.assignee fun _ => rfl
  | priority =>
    refine (compares_int32.on Task.priority).congr (fun a b => Iff.rfl) fun a b => ?_
    exact Iff.of_eq (Task.Content.int.injEq _ _).symm
  | createTime => exact compares_date createTime (fun a => some a.createTime) fun _ => rfl
  | dueDate => exact compares_date dueDate Task.dueDate fun _ => rfl
  | followUpDate => exact compares_date followUpDate Task.followUpDate fun _ => rfl

end SortProperty

/-! ## Keys -/

namespace SortKey

/-- A task comes before another by one key, which may turn the order of the attribute around. -/
def Before (k : SortKey) (a b : Task) : Prop :=
  if k.direction = some .descending then k.property.Before b a else k.property.Before a b

theorem compares (k : SortKey) : Compares k.compareTasks k.Before k.property.Ties := by
  have h := k.property.compares
  by_cases hk : k.direction = some .descending
  · have hcmp : k.compareTasks = fun a b => (k.property.compareTasks a b).swap := by
      funext a b
      rw [compareTasks, if_pos hk]
    rw [hcmp]
    exact h.swap.congr (fun a b => by rw [Before, if_pos hk]) fun a b => Iff.rfl
  · have hcmp : k.compareTasks = k.property.compareTasks := by
      funext a b
      rw [compareTasks, if_neg hk]
    rw [hcmp]
    exact h.congr (fun a b => by rw [Before, if_neg hk]) fun a b => Iff.rfl

end SortKey

/-- A task comes before another by several keys: the first of them that tells the two apart puts it
first. -/
inductive Precedes : List SortKey → Task → Task → Prop where
  | here {k : SortKey} {keys : List SortKey} {a b : Task} (h : k.Before a b) :
      Precedes (k :: keys) a b
  | later {k : SortKey} {keys : List SortKey} {a b : Task} (hties : k.property.Ties a b)
      (h : Precedes keys a b) : Precedes (k :: keys) a b

/-- Two tasks that no key tells apart. -/
def Tied (keys : List SortKey) (a b : Task) : Prop := ∀ k ∈ keys, k.property.Ties a b

theorem precedes_cons {k : SortKey} {keys : List SortKey} {a b : Task} :
    Precedes (k :: keys) a b ↔ k.Before a b ∨ k.property.Ties a b ∧ Precedes keys a b := by
  constructor
  · rintro (h | ⟨hties, h⟩)
    · exact .inl h
    · exact .inr ⟨hties, h⟩
  · rintro (h | ⟨hties, h⟩)
    · exact .here h
    · exact .later hties h

/-- Comparing by keys decides the order by them, and ties the tasks that they do not tell apart. -/
theorem compares_keys (keys : List SortKey) :
    Compares (compareByKeys keys) (Precedes keys) (Tied keys) := by
  induction keys with
  | nil =>
    refine ⟨?_, fun a b => ?_, fun a b => ?_⟩
    · exact { eq_swap := rfl, isLE_trans := fun _ _ => rfl }
    · exact iff_of_false nofun nofun
    · exact iff_of_true rfl (List.forall_mem_nil _)
  | cons k keys ih =>
    refine (k.compares.andThen ih).congr (fun a b => precedes_cons.symm) fun a b => ?_
    rw [Tied, Tied, List.forall_mem_cons]

end Worklist
