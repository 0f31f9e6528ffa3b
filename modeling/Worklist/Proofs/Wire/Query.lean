import Worklist.Proofs.Wire.Predicate
import Worklist.Wire.Query

/-!
# Trees, plans and sort keys that survive the wire

The structure of a query, read back from its JSON form.  Nothing is asked of a tree but that the
positions in it are numbers of 64 bits: they may lead anywhere, and the tree need not have a root.

* `Node.Portable`, `Tree.Portable` and `Closing.Portable` are the conditions.
* `survives_tree`, `survives_closing` and `survives_sortKey` are the results.
-/

namespace Worklist

/-- A group whose filters are portable and whose positions have 64 bits. -/
structure Node.Portable (n : Node) : Prop where
  predicates : n.predicates.Portable
  parent : ∀ id ∈ n.parent, id < UInt64.size
  children : ∀ id ∈ n.children, id < UInt64.size

def Tree.Portable (t : Tree) : Prop := ∀ n ∈ t.nodes.toList, n.Portable

/-- A number of brackets that has 64 bits. -/
def Closing.Portable (c : Closing) : Prop := c.count < UInt64.size

instance (c : Closing) : Decidable c.Portable := inferInstanceAs (Decidable (_ < _))

namespace Wire

variable {room : Nat}

/-! ## Names -/

theorem isNamed_connective (c : Connective) : IsNamed c := by cases c <;> rfl

theorem isNamed_property (p : SortProperty) : IsNamed p := by cases p <;> rfl

theorem isNamed_direction (d : Direction) : IsNamed d := by cases d <;> rfl

/-! ## Trees -/

theorem survives_nat {n : Nat} (h : n < UInt64.size) : Survives ofNat nat? room n := by
  have hlimit : Json.wordLimit = UInt64.size := rfl
  constructor
  · apply Json.fits_integer
    rw [Json.IsWord, hlimit]
    omega
  · rw [nat?, ofNat, integer?, if_pos ⟨by omega, by omega⟩]
    rfl

theorem survives_node {n : Node} (h : n.Portable) : Survives ofNode node? (room + 6) n := by
  have hconnective : Survives toName (ofName? false) (room + 5) n.connective :=
    survives_name (isNamed_connective n.connective) false
  have hpredicates : Survives ofPredicateSet predicateSet? (room + 5) n.predicates :=
    survives_predicateSet h.predicates
  have hparent : Survives (ofOption ofNat) (nullable? nat?) (room + 5) n.parent :=
    survives_option (fun id hid => survives_nat (h.parent id hid)) fun _ => Json.noConfusion
  have hchildren : Survives (ofList ofNat) (list? nat?) (room + 5) n.children :=
    survives_list fun id hid => survives_nat (h.children id hid)
  have hrecord := of?_object ["operator", "predicates", "parent", "children"]
    [("operator", toName n.connective), ("predicates", ofPredicateSet n.predicates),
      ("parent", ofOption ofNat n.parent), ("children", ofList ofNat n.children)]
    (by simp) (by simp)
  constructor
  · rw [ofNode, Json.fits_object]
    simp [hconnective.fits, hpredicates.fits, hparent.fits, hchildren.fits]
  · simp only [node?, ofNode, hrecord, some_bind, Record.required?, Record.optional?,
      List.lookup_cons, String.reduceBEq, beq_self_eq_true, Option.bind_some, hconnective.read,
      hpredicates.read, hparent.read, hchildren.read, Option.pure_def]

theorem survives_tree {t : Tree} (h : t.Portable) : Survives ofTree tree? (room + 8) t := by
  have hnodes : Survives (ofList ofNode) (list? node?) (room + 7) t.nodes.toList :=
    survives_list fun n hn => survives_node (h n hn)
  have hrecord := of?_object ["nodes"] [("nodes", ofList ofNode t.nodes.toList)] (by simp) (by simp)
  constructor
  · rw [ofTree, Json.fits_object]
    simp [hnodes.fits]
  · simp only [tree?, ofTree, hrecord, some_bind, Record.required?, List.lookup_cons,
      beq_self_eq_true, Option.bind_some, hnodes.read, Option.pure_def, Array.toArray_toList]

/-! ## Closing plans and sort keys -/

theorem survives_closing {c : Closing} (h : c.Portable) :
    Survives ofClosing closing? (room + 1) c := by
  cases c with
  | none =>
    exact ⟨Json.fits_object.2 (by simp), by
      simp [closing?, ofClosing, of?_tag, Tagged.alone?]⟩
  | parens n =>
    have hcount : Survives ofNat nat? room n := survives_nat h
    exact ⟨fits_tagged hcount.fits, by
      simp [closing?, ofClosing, of?_tagged, Tagged.content?, hcount.read]⟩

theorem survives_sortKey (k : SortKey) : Survives ofSortKey sortKey? (room + 1) k := by
  have hproperty : Survives toName (ofName? false) room k.property :=
    survives_name (isNamed_property k.property) false
  have hdirection : Survives (ofOption toName) (nullable? (ofName? false)) room k.direction :=
    survives_option (fun d _ => survives_name (isNamed_direction d) false) fun _ => Json.noConfusion
  have hrecord := of?_object ["property", "direction"]
    [("property", toName k.property), ("direction", ofOption toName k.direction)]
    (by simp) (by simp)
  constructor
  · rw [ofSortKey, Json.fits_object]
    simp [hproperty.fits, hdirection.fits]
  · simp only [sortKey?, ofSortKey, hrecord, some_bind, Record.required?, Record.optional?,
      List.lookup_cons, String.reduceBEq, beq_self_eq_true, Option.bind_some, hproperty.read,
      hdirection.read, Option.pure_def]

end Wire

end Worklist
