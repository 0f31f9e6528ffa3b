import Mathlib.Data.List.Forall2
import Worklist.Like.Pattern

/-!
# What patterns accept

A pattern accepts the values that can be cut into pieces, one for each item, such that every item
takes its piece.  `Reads` says how a text is read into items and `Splits` how a value is cut.

`Pattern.accepts` tries no cuts: it marks the suffixes of the value that the last items accept,
item by item.  `Marks` says of a list of marks what it stands for, each step from one item to the
one before keeps it (`marks_acceptOne`, `marks_acceptMany`), and `marks_acceptedSuffixes` is the
induction on the items.
-/

namespace Worklist.Like

/-! ## The pattern language -/

/-- A text is read from left to right.  The escape character is recognised first, so the other
rules ask for another character. -/
inductive Reads (escape : Char) : List Char → List Item → Prop where
  | done : Reads escape [] []
  | escaped {c : Char} {cs : List Char} {items : List Item} (h : Reads escape cs items) :
      Reads escape (escape :: c :: cs) (.literal c :: items)
  | trailing : Reads escape [escape] [.literal escape]
  | many {cs : List Char} {items : List Item} (hescape : '%' ≠ escape)
      (h : Reads escape cs items) : Reads escape ('%' :: cs) (.many :: items)
  | one {cs : List Char} {items : List Item} (hescape : '_' ≠ escape)
      (h : Reads escape cs items) : Reads escape ('_' :: cs) (.one :: items)
  | literal {c : Char} {cs : List Char} {items : List Item} (hescape : c ≠ escape)
      (hmany : c ≠ '%') (hone : c ≠ '_') (h : Reads escape cs items) :
      Reads escape (c :: cs) (.literal c :: items)

/-- Whether a character of a value is the one of a literal. -/
def Alike (ignoreCase : Bool) (c p : Char) : Prop :=
  if ignoreCase then Text.fold c = Text.fold p else c = p

/-- The pieces that an item takes. -/
def Item.Takes (ignoreCase : Bool) : Item → List Char → Prop
  | .literal p, piece => ∃ c, piece = [c] ∧ Alike ignoreCase c p
  | .one, piece => ∃ c, piece = [c]
  | .many, _ => True

/-- A value that is cut into one piece for each item. -/
def Splits (ignoreCase : Bool) (items : List Item) (value : List Char) : Prop :=
  ∃ pieces : List (List Char),
    pieces.flatten = value ∧ List.Forall₂ (Item.Takes ignoreCase) items pieces

variable {escape : Char} {ignoreCase : Bool} {cs : List Char} {is : List Item}

/-! ## Readings -/

/-- What is not the escape character is an item by itself. -/
theorem items_of_ne {c : Char} (h : c ≠ escape) : items escape (c :: cs) =
    (if c = '%' then .many else if c = '_' then .one else .literal c) :: items escape cs := by
  cases cs <;> simp only [items, if_neg h] <;> split_ifs <;> rfl

theorem reads_items (escape : Char) (cs : List Char) : Reads escape cs (items escape cs) := by
  induction cs using items.induct escape with
  | case1 => exact .done
  | case2 =>
    rw [items, if_pos rfl]
    exact .trailing
  | case3 c cs ih =>
    rw [items, if_pos rfl]
    exact .escaped ih
  | case4 cs hescape ih =>
    rw [items_of_ne hescape, if_pos rfl]
    exact .many hescape ih
  | case5 cs hescape hmany ih =>
    rw [items_of_ne hescape, if_neg hmany, if_pos rfl]
    exact .one hescape ih
  | case6 c cs hescape hmany hone ih =>
    rw [items_of_ne hescape, if_neg hmany, if_neg hone]
    exact .literal hescape hmany hone ih

/-- Every text has one reading. -/
theorem reads_iff : Reads escape cs is ↔ is = items escape cs := by
  constructor
  · intro h
    induction h with
    | done => rw [items]
    | escaped h ih => rw [items, if_pos rfl, ← ih]
    | trailing => rw [items, if_pos rfl]
    | many hescape h ih => rw [items_of_ne hescape, if_pos rfl, ← ih]
    | one hescape h ih => rw [items_of_ne hescape, if_neg (by decide), if_pos rfl, ← ih]
    | literal hescape hmany hone h ih =>
      rw [items_of_ne hescape, if_neg hmany, if_neg hone, ← ih]
  · rintro rfl
    exact reads_items escape cs

/-! ## Cuts -/

theorem splits_nil : Splits ignoreCase [] cs ↔ cs = [] := by
  constructor
  · rintro ⟨pieces, rfl, h⟩
    cases h
    rfl
  · rintro rfl
    exact ⟨[], rfl, .nil⟩

theorem splits_cons {item : Item} : Splits ignoreCase (item :: is) cs ↔
    ∃ piece rest, cs = piece ++ rest ∧ item.Takes ignoreCase piece ∧ Splits ignoreCase is rest := by
  constructor
  · rintro ⟨pieces, rfl, h⟩
    cases h with
    | cons hpiece hpieces => exact ⟨_, _, rfl, hpiece, _, rfl, hpieces⟩
  · rintro ⟨piece, rest, rfl, hpiece, pieces, rfl, hpieces⟩
    exact ⟨piece :: pieces, rfl, .cons hpiece hpieces⟩

/-- A first piece of one character is the first character. -/
theorem exists_piece_iff {T : List Char → Prop} {test : Char → Prop} {P : List Char → Prop}
    (hT : ∀ piece, T piece ↔ ∃ c, piece = [c] ∧ test c) :
    (∃ c rest, cs = c :: rest ∧ test c ∧ P rest) ↔
      ∃ piece rest, cs = piece ++ rest ∧ T piece ∧ P rest := by
  simp only [hT]
  constructor
  · rintro ⟨c, rest, rfl, hc, hrest⟩
    exact ⟨[c], rest, rfl, ⟨c, rfl, hc⟩, hrest⟩
  · rintro ⟨_, rest, rfl, ⟨c, rfl, hc⟩, hrest⟩
    exact ⟨c, rest, rfl, hc, hrest⟩

/-! ## Marks on suffixes -/

/-- A list with one mark for each suffix of a value, the value itself first and the empty suffix
last, that marks the suffixes with a property. -/
inductive Marks (P : List Char → Prop) : List Char → List Bool → Prop where
  | last {b : Bool} (h : b = true ↔ P []) : Marks P [] [b]
  | cons {c : Char} {cs : List Char} {b : Bool} {bs : List Bool} (h : b = true ↔ P (c :: cs))
      (hs : Marks P cs bs) : Marks P (c :: cs) (b :: bs)

variable {P Q : List Char → Prop} {marks : List Bool}

theorem Marks.head (h : Marks P cs marks) : marks.headD false = true ↔ P cs := by
  cases h with
  | last h => exact h
  | cons h _ => exact h

theorem Marks.congr (h : Marks P cs marks) (hPQ : ∀ s, P s ↔ Q s) : Marks Q cs marks := by
  induction h with
  | last h => exact .last (h.trans (hPQ _))
  | cons h _ ih => exact .cons (h.trans (hPQ _)) ih

theorem marks_acceptEnd (f : Char → Char) (cs : List Char) :
    Marks (· = []) cs (acceptEnd (cs.map f)) := by
  induction cs with
  | nil => exact .last (iff_of_true rfl rfl)
  | cons c cs ih => exact .cons (by simp) ih

/-- A step back over an item that takes one character. -/
theorem marks_acceptOne {f : Char → Char} {test : Char → Bool} (h : Marks P cs marks) :
    Marks (fun s => ∃ c rest, s = c :: rest ∧ test (f c) = true ∧ P rest) cs
      (acceptOne test (cs.map f) marks) := by
  induction h with
  | last h => exact .last (by simp)
  | @cons c cs b bs h hs ih =>
    refine .cons ?_ ih
    rw [Bool.and_eq_true, hs.head]
    constructor
    · rintro ⟨htest, hrest⟩
      exact ⟨c, cs, rfl, htest, hrest⟩
    · rintro ⟨_, _, heq, htest, hrest⟩
      cases heq
      exact ⟨htest, hrest⟩

/-- A step back over an item that takes any characters. -/
theorem marks_acceptMany (h : Marks P cs marks) :
    Marks (fun s => ∃ piece rest, s = piece ++ rest ∧ P rest) cs (acceptMany marks) := by
  induction h with
  | last h =>
    refine .last ?_
    rw [acceptMany, List.headD_nil, Bool.or_false, h]
    constructor
    · exact fun hrest => ⟨[], [], rfl, hrest⟩
    · rintro ⟨piece, rest, heq, hrest⟩
      obtain ⟨-, rfl⟩ := List.nil_eq_append_iff.1 heq
      exact hrest
  | @cons c cs b bs h hs ih =>
    refine .cons ?_ ih
    rw [Bool.or_eq_true, h, ih.head]
    constructor
    · rintro (hhere | ⟨piece, rest, rfl, hrest⟩)
      · exact ⟨[], _, rfl, hhere⟩
      · exact ⟨c :: piece, rest, rfl, hrest⟩
    · rintro ⟨piece, rest, heq, hrest⟩
      cases piece with
      | nil => exact .inl (heq ▸ hrest)
      | cons _ piece =>
        cases heq
        exact .inr ⟨piece, rest, rfl, hrest⟩

/-! ## Acceptance -/

theorem normal_beq {c p : Char} :
    (normal ignoreCase c == normal ignoreCase p) = true ↔ Alike ignoreCase c p := by
  rw [beq_iff_eq]
  cases ignoreCase <;> exact Iff.rfl

/-- Each item marks the suffixes of which it takes a piece and the items after it take the rest. -/
theorem marks_accept {item : Item} (h : Marks P cs marks) :
    Marks (fun s => ∃ piece rest, s = piece ++ rest ∧ item.Takes ignoreCase piece ∧ P rest) cs
      ((item.normal ignoreCase).accept (cs.map (normal ignoreCase)) marks) := by
  cases item with
  | literal p =>
    exact (marks_acceptOne h).congr fun s => exists_piece_iff fun piece =>
      exists_congr fun c => and_congr_right fun _ => normal_beq.symm
  | one => exact (marks_acceptOne h).congr fun s => exists_piece_iff (by simp [Item.Takes])
  | many =>
    refine (marks_acceptMany h).congr fun s => ?_
    simp only [Item.Takes, true_and]

theorem marks_acceptedSuffixes (ignoreCase : Bool) (cs : List Char) (is : List Item) :
    Marks (Splits ignoreCase is) cs
      (acceptedSuffixes (cs.map (normal ignoreCase)) (is.map (Item.normal ignoreCase))) := by
  induction is with
  | nil => exact (marks_acceptEnd _ cs).congr fun _ => splits_nil.symm
  | cons item is ih => exact (marks_accept ih).congr fun _ => splits_cons.symm

/-- A value matches exactly if it can be cut into pieces that the items of the pattern take. -/
theorem likeMatches_iff (value pattern : String) (escape : Char) (ignoreCase : Bool) :
    likeMatches value pattern escape ignoreCase = true ↔
      Splits ignoreCase (items escape pattern.toList) value.toList :=
  (marks_acceptedSuffixes ignoreCase value.toList (items escape pattern.toList)).head

end Worklist.Like
