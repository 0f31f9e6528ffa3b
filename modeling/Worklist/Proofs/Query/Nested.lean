import Worklist.Proofs.Query.Directions
import Worklist.Proofs.Query.Frames

/-!
# Sort keys and nested groups

Sort keys belong to the root.  Inside a nested group no call adds one, but a key that was added at
the root and still waits for its direction can be given it there.

* `Reachable.isAtRoot_iff_depth` says that the current group is the root exactly if no group is
  open around it, and `Query.StaysBelow` that a list of calls is made inside one open group.
* `sortKeys_call_inside` is the step: what one call inside a group makes of the sort keys.
  `sortKeys_foldl_call_inside` is the run.
* `sortKeys_in_groups` is the result, for one call and for all calls between the one that opens a
  group and the one that closes it.
* `exists_direction_inside` is a list of calls that changes the sort keys inside a group.
-/

namespace Worklist

/-- The direction that a call gives. -/
def Edit.direction? : Edit → Option Direction
  | setDirection d => some d
  | _ => none

namespace Query

variable {q r : Query} {e : Edit}

/-! ## Depth -/

theorem Reachable.exists_shows (h : q.Reachable) : ∃ g outer, q.Shows g outer := by
  obtain ⟨g, outer, hshows, -⟩ := h.layout (P := fun _ _ => True) (fun _ => trivial)
    (fun _ _ => trivial) (fun _ _ _ => trivial)
  exact ⟨g, outer, hshows⟩

theorem Reachable.isAtRoot_iff_depth (h : q.Reachable) :
    q.isAtRoot = true ↔ q.tree.depth q.current = 0 := by
  obtain ⟨g, outer, hshows⟩ := h.exists_shows
  rw [hshows.isAtRoot, hshows.tree, hshows.current, OpenGroup.depth_position, List.isEmpty_iff,
    List.length_eq_zero_iff]

/-- Each call is made in a group that has more than `depth` groups around it. -/
def StaysBelow (depth : Nat) (q : Query) : List Edit → Prop
  | [] => True
  | e :: edits => depth < q.tree.depth q.current ∧ (q.call e).StaysBelow depth edits

instance decidableStaysBelow (depth : Nat) :
    (q : Query) → (edits : List Edit) → Decidable (q.StaysBelow depth edits)
  | _, [] => isTrue trivial
  | q, e :: edits =>
    have := decidableStaysBelow depth (q.call e) edits
    inferInstanceAs (Decidable (depth < q.tree.depth q.current ∧ _))

theorem Reachable.isAtRoot_of_depth_lt (h : q.Reachable) {depth : Nat}
    (hdepth : depth < q.tree.depth q.current) : q.isAtRoot = false := by
  rw [← Bool.not_eq_true, h.isAtRoot_iff_depth]
  exact Nat.ne_of_gt (Nat.lt_of_le_of_lt (Nat.zero_le depth) hdepth)

/-! ## One call -/

/-- The sort keys when the one that waits, if there is one, has got a direction. -/
def keysWith (q : Query) (given : Option Direction) : List SortKey :=
  match given with
  | none => q.sortKeys
  | some d =>
    match q.pendingKey? with
    | none => q.sortKeys
    | some key => q.sortKeys.dropLast ++ [⟨key.property, some d⟩]

theorem keysWith_none (q : Query) : q.keysWith none = q.sortKeys := rfl

theorem keysWith_of_complete (h : q.pendingKey? = none) (given : Option Direction) :
    q.keysWith given = q.sortKeys := by
  cases given with
  | none => rfl
  | some d => simp only [keysWith, h]

theorem keysWith_of_pending {key : SortKey} (h : q.pendingKey? = some key) (d : Direction) :
    q.keysWith (some d) = q.sortKeys.dropLast ++ [⟨key.property, some d⟩] := by
  simp only [keysWith, h]

/-- Only the sort keys count for the key that waits. -/
theorem keysWith_congr (h : r.sortKeys = q.sortKeys) : r.keysWith = q.keysWith := by
  funext given
  simp only [keysWith, pendingKey?, h]

/-- No key waits once a direction has been given. -/
theorem pendingKey?_of_keysWith {d : Direction} (h : r.sortKeys = q.keysWith (some d)) :
    r.pendingKey? = none := by
  cases hpending : q.pendingKey? with
  | none =>
    rw [keysWith_of_complete hpending] at h
    rw [← hpending, pendingKey?, pendingKey?, h]
  | some key =>
    rw [keysWith_of_pending hpending] at h
    rw [pendingKey?, h, List.getLast?_concat]
    rfl

theorem orderBy_inside (h : q.isAtRoot = false) (p : SortProperty) :
    q.apply (.orderBy p) = .error (.orderingInsideGroup p q.current) := by
  rw [apply, orderBy, h]
  rfl

theorem setDirection_eq_error {d : Direction} :
    (∃ err, q.apply (.setDirection d) = .error err) ↔ q.pendingKey? = none := by
  rw [apply, setDirection]
  cases q.pendingKey? with
  | none => exact iff_of_true ⟨_, rfl⟩ rfl
  | some key => exact iff_of_false (by rintro ⟨err, h⟩; cases h) (Option.some_ne_none key)

/-- The other calls leave the sort keys as they are. -/
theorem sortKeys_call (he : e.onSortKeys = false) : (q.call e).sortKeys = q.sortKeys := by
  cases e with
  | orderBy p => cases he
  | setDirection d => cases he
  | openGroup c => rfl
  | closeGroup c =>
    rw [call, apply, closeGroup]
    split
    · rfl
    · split
      · rfl
      · rfl
  | _ =>
    rw [call, apply_of_onFilters rfl]
    generalize Edit.change q.group.connective q.predicates _ = changed
    cases changed with
    | error err => rfl
    | ok s => rfl

/-- The step: inside a group a call gives the key that waits its direction, or changes no key. -/
theorem sortKeys_call_inside (h : q.isAtRoot = false) (e : Edit) :
    (q.call e).sortKeys = q.keysWith e.direction? := by
  cases he : e.onSortKeys with
  | false =>
    have hnone : e.direction? = none := by
      cases e with
      | setDirection d => cases he
      | _ => rfl
    rw [sortKeys_call he, hnone, keysWith_none]
  | true =>
    cases e with
    | orderBy p =>
      rw [call_of_error (orderBy_inside h p)]
      exact (keysWith_none q).symm
    | setDirection d =>
      rw [Edit.direction?]
      cases hpending : q.pendingKey? with
      | none =>
        obtain ⟨err, herr⟩ := setDirection_eq_error.2 hpending
        rw [call_of_error herr, keysWith_of_complete hpending]
      | some key =>
        have hok : q.apply (.setDirection d) = .ok _ := setDirection_eq_ok.2 ⟨key, hpending, rfl⟩
        rw [call_of_ok hok, keysWith_of_pending hpending]
    | _ => cases he

/-! ## All calls in a group -/

/-- The run: of the calls inside a group only the first one for a direction counts. -/
theorem sortKeys_foldl_call_inside {depth : Nat} {edits : List Edit} (hq : q.Reachable)
    (h : q.StaysBelow depth edits) :
    (edits.foldl call q).sortKeys = q.keysWith (edits.findSome? Edit.direction?) := by
  induction edits generalizing q with
  | nil => rw [List.foldl_nil, List.findSome?_nil, keysWith_none]
  | cons e edits ih =>
    obtain ⟨hdepth, hrest⟩ := h
    have hcall := sortKeys_call_inside (hq.isAtRoot_of_depth_lt hdepth) e
    rw [List.foldl_cons, ih (hq.call e) hrest, List.findSome?_cons]
    cases hd : e.direction? with
    | none =>
      rw [hd, keysWith_none] at hcall
      rw [keysWith_congr hcall]
    | some d =>
      rw [hd] at hcall
      rw [keysWith_of_complete (pendingKey?_of_keysWith hcall), hcall]

/-- Inside a nested group a sort key is never added, and a call for a direction fails unless a key
that was added before waits for it.

Between the call that opens a group and the one that closes it, the sort keys stay as they are, but
for a key that waits when the group is opened: it gets the first direction that is given.  In
particular nothing changes if no key waits. -/
theorem sortKeys_in_groups (hq : q.Reachable) :
    (q.isAtRoot = false →
      (∀ p, q.apply (.orderBy p) = .error (.orderingInsideGroup p q.current)) ∧
      ∀ d, (∃ err, q.apply (.setDirection d) = .error err) ↔ q.pendingKey? = none) ∧
    ∀ (c : Connective) (edits : List Edit),
      (q.openGroup c).StaysBelow (q.tree.depth q.current) edits →
      (edits.foldl call (q.openGroup c)).sortKeys =
          q.keysWith (edits.findSome? Edit.direction?) ∧
        (q.pendingKey? = none → (edits.foldl call (q.openGroup c)).sortKeys = q.sortKeys) := by
  refine ⟨fun h => ⟨orderBy_inside h, fun d => setDirection_eq_error⟩, fun c edits hstays => ?_⟩
  have hopened : (q.openGroup c).Reachable := .apply (.openGroup c) hq rfl
  have hrun : (edits.foldl call (q.openGroup c)).sortKeys =
      q.keysWith (edits.findSome? Edit.direction?) := by
    have hsame : (q.openGroup c).keysWith = q.keysWith := keysWith_congr rfl
    rw [sortKeys_foldl_call_inside hopened hstays, hsame]
  refine ⟨hrun, fun hcomplete => ?_⟩
  rw [hrun, keysWith_of_complete hcomplete]

/-- A key waits while a group is opened and another one within it.  Of the two directions that are
given there the first one counts, and no key is added; after that a direction is refused. -/
theorem sortKeys_in_groups_built :
    let q := built [.orderBy .name]
    let edits : List Edit := [.orderBy .priority, .setFlag .unassigned, .openGroup .and,
      .setDirection .descending, .setDirection .ascending, .closeGroup .and, .closeGroup .or]
    let inside := edits.dropLast.foldl call (q.openGroup .or)
    q.Reachable ∧ (q.openGroup .or).StaysBelow (q.tree.depth q.current) edits ∧
      (edits.foldl call (q.openGroup .or)).sortKeys = [⟨.name, some .descending⟩] ∧
      inside.isAtRoot = false ∧
        inside.apply (.orderBy .priority) = .error (.orderingInsideGroup .priority 1) ∧
          ∃ err, inside.apply (.setDirection .ascending) = .error err := by
  intro q edits inside
  have hq : q.Reachable := reachable_built _
  have hstays : (q.openGroup .or).StaysBelow (q.tree.depth q.current) edits := by decide +kernel
  have hinside : inside.Reachable := (Reachable.apply (.openGroup .or) hq rfl).foldl_call _
  have hroot : inside.isAtRoot = false := by decide +kernel
  have hcomplete : inside.pendingKey? = none := by decide +kernel
  obtain ⟨hsort, hdirection⟩ := (sortKeys_in_groups hinside).1 hroot
  exact ⟨hq, hstays, ((sortKeys_in_groups hq).2 .or edits hstays).1, hroot, hsort .priority,
    (hdirection .ascending).2 hcomplete⟩

/-- A key that waits when a group is opened: in the group a call for its direction succeeds, so the
sort keys change between the call that opens the group and the one that closes it. -/
theorem exists_direction_inside :
    ∃ q r closed : Query, q.Reachable ∧ q.isAtRoot = false ∧
      q.apply (.setDirection .ascending) = .ok r ∧ r.apply (.closeGroup .or) = .ok closed ∧
        closed.isAtRoot = true ∧ q.sortKeys = [⟨.taskId, none⟩] ∧
          closed.sortKeys = [⟨.taskId, some .ascending⟩] :=
  ⟨built [.orderBy .taskId, .openGroup .or], _, _, reachable_built _, rfl, rfl, rfl, rfl, rfl, rfl⟩

end Query

end Worklist
