/-!
# Tables over numbered keys

A key type whose values are numbered without gaps, and tables that hold at most one entry for each
key.  A table is its slots in the order of the numbering, so two tables with the same entries are
equal and listing a table gives the entries in order.

* `get?_set`, `get?_erase` and `get?_empty` say what each operation does to the entries;
* `ext` says that the entries determine the table.
-/

namespace Worklist

/-- A type whose values are numbered from zero. -/
class Numbered (κ : Type) where
  count : Nat
  index : κ → Fin count
  item : Fin count → κ
  item_index : ∀ k, item (index k) = k
  index_item : ∀ i, index (item i) = i

/-- At most one entry for each key. -/
structure Table (κ : Type) (α : Type) [Numbered κ] where
  slots : Vector (Option α) (Numbered.count κ)
  deriving DecidableEq, BEq

namespace Table

variable {κ α : Type} [Numbered κ]

/-- A table without entries. -/
def empty : Table κ α := ⟨Vector.replicate _ none⟩

instance : Inhabited (Table κ α) := ⟨empty⟩

/-- The entry of a key. -/
def get? (t : Table κ α) (k : κ) : Option α := t.slots[Numbered.index k]

/-- Puts an entry in place of what the key had. -/
def set (t : Table κ α) (k : κ) (a : α) : Table κ α :=
  ⟨t.slots.set (Numbered.index k) (some a)⟩

/-- Removes the entry of a key. -/
def erase (t : Table κ α) (k : κ) : Table κ α := ⟨t.slots.set (Numbered.index k) none⟩

/-- Whether a key has an entry. -/
def contains (t : Table κ α) (k : κ) : Bool := (t.get? k).isSome

/-- The keys in the order of their numbers. -/
def allKeys (κ : Type) [Numbered κ] : List κ :=
  (List.finRange (Numbered.count κ)).map Numbered.item

/-- The table with a given entry for each key. -/
def ofFn (f : κ → Option α) : Table κ α := ⟨Vector.ofFn fun i => f (Numbered.item i)⟩

/-- The entries in the order of their keys. -/
def toList (t : Table κ α) : List (κ × α) :=
  (allKeys κ).filterMap fun k => (t.get? k).map (k, ·)

/-- Whether there is no entry at all. -/
def isEmpty (t : Table κ α) : Bool := t.slots.all Option.isNone

/-! ## Entries after an operation -/

theorem index_inj {a b : κ} : Numbered.index a = Numbered.index b ↔ a = b := by
  constructor
  · intro h
    rw [← Numbered.item_index a, h, Numbered.item_index]
  · intro h
    rw [h]

@[simp] theorem get?_empty (k : κ) : (empty : Table κ α).get? k = none := by
  simp [empty, get?]

theorem get?_set [DecidableEq κ] (t : Table κ α) (k : κ) (a : α) (l : κ) :
    (t.set k a).get? l = if k = l then some a else t.get? l := by
  simp only [get?, set, Fin.getElem_fin, Vector.getElem_set, Fin.val_inj, index_inj]

theorem get?_erase [DecidableEq κ] (t : Table κ α) (k l : κ) :
    (t.erase k).get? l = if k = l then none else t.get? l := by
  simp only [get?, erase, Fin.getElem_fin, Vector.getElem_set, Fin.val_inj, index_inj]

@[simp] theorem get?_ofFn (f : κ → Option α) (k : κ) : (ofFn f).get? k = f k := by
  simp [get?, ofFn, Numbered.item_index]

/-- The entries determine the table. -/
theorem ext {s t : Table κ α} (h : ∀ k, s.get? k = t.get? k) : s = t := by
  obtain ⟨s⟩ := s
  obtain ⟨t⟩ := t
  congr 1
  apply Vector.ext
  intro i hi
  simpa [get?, Numbered.index_item] using h (Numbered.item ⟨i, hi⟩)

end Table

end Worklist
