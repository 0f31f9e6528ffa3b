import Worklist.Proofs.Query.Layout
import Worklist.Proofs.Tree.Depth
import Worklist.Proofs.Tree.Fold

/-!
# Queries as stacks of frames

A query keeps its groups in an array and writes to the group at a position.  A stack of frames is
the same query without positions: each frame is a group that is still open, with the groups that
are finished below it, and calls only look at the top frame.

* `GroupTree` is a group with everything below it, and `Tree.unfold` reads it off an array.
* `FrameStack` is the machine, with `push`, `pop` and `edit` for the three sorts of calls.
* `Query.Tracks` relates a query and a stack.  `Tracks.apply` is the step: a call fails on both
  sides with the same failure or leads to related states.
* `Tracks.unfold_root` and `Tracks.depth_current` read the relation.
* `calls_simulated` is the result for every list of calls, those that fail included.
-/

namespace Worklist

/-! ## Groups without positions -/

/-- A group with the groups below it. -/
inductive GroupTree where
  | node (connective : Connective) (predicates : PredicateSet) (children : List GroupTree)

/-- The groups of a forest, each with those below it. -/
def Forest.groups : Forest → List GroupTree
  | nil => []
  | cons c s below after => .node c s below.groups :: after.groups

theorem Forest.groups_append (f g : Forest) : (f ++ g).groups = f.groups ++ g.groups := by
  induction f with
  | nil => rfl
  | cons c s below after _ ih => rw [cons_append, groups, groups, ih, List.cons_append]

namespace Tree

/-- The group at a position with everything below it. -/
def unfold (t : Tree) : NodeId → GroupTree :=
  t.fold fun id below => .node (t.node id).connective (t.node id).predicates below

theorem unfold_eq {t : Tree} (ht : t.Ascending) (id : Nat) :
    t.unfold id =
      .node (t.node id).connective (t.node id).predicates ((t.node id).children.map t.unfold) := by
  rw [unfold, fold_eq ht]

theorem Carries.unfold {t : Tree} (ht : t.Ascending) {f : Forest} {parent first : Nat}
    (h : t.Carries parent first f) : (f.tops first).map t.unfold = f.groups := by
  induction f generalizing parent first with
  | nil => rfl
  | cons c s below after ihb iha =>
    obtain ⟨hnode, hbelow, hafter⟩ := h
    rw [Forest.tops, List.map_cons, iha hafter, unfold_eq ht, node_eq_of_get? hnode, ihb hbelow,
      Forest.groups]

theorem unfold_root_ofForest (s : PredicateSet) (f : Forest) :
    (ofForest s f).unfold root = .node .and s f.groups := by
  have ht := ascending_ofForest s f
  rw [unfold_eq ht, node_root_ofForest, (carries_ofForest s f).unfold ht]

end Tree

/-! ## Frames -/

/-- An open group, with the groups that are finished below it. -/
structure Frame where
  connective : Connective
  predicates : PredicateSet
  finished : List GroupTree

namespace Frame

/-- A frame that has just been opened. -/
def blank (c : Connective) : Frame := ⟨c, .empty, []⟩

/-- The frame as a finished group. -/
def close (frame : Frame) : GroupTree := .node frame.connective frame.predicates frame.finished

/-- A frame with one more finished group. -/
def adopt (frame : Frame) (child : GroupTree) : Frame :=
  { frame with finished := frame.finished ++ [child] }

end Frame

/-- The open groups, the innermost on top. -/
structure FrameStack where
  top : Frame
  below : List Frame

/-- What a call makes of the filters of a group with connective `c`.  Calls on groups and on sort
keys leave them as they are. -/
def Edit.change (c : Connective) (s : PredicateSet) : Edit → Except QueryError PredicateSet
  | .setTerm d t _ => do
    if t = .textSet [] then throw (.emptyList d)
    s.checkCandidates c false d
    return s.setTerm d t c
  | .setExpression d expression _ => do
    s.checkCandidates c true d
    return s.setExpression d expression
  | .setFlag f => do
    if f = .includeAssignedTasks then s.checkAssignedTasks
    return s.setFlag f
  | .addVariable p => return s.addVariable p
  | .compareVariable name operator raw scope isLocal => do
    return s.addVariable (← VariablePredicate.ofRaw name raw operator scope isLocal)
  | _ => return s

namespace FrameStack

/-- Nothing but the root is open. -/
def start : FrameStack := ⟨.blank .and, []⟩

/-- Opens a frame. -/
def push (m : FrameStack) (c : Connective) : FrameStack := ⟨.blank c, m.top :: m.below⟩

/-- Finishes the top frame, which must not be the last one and have the connective of the call. -/
def pop (m : FrameStack) (c : Connective) : Except QueryError FrameStack :=
  match m.below with
  | [] => .error (.unmatchedEnd c)
  | next :: rest =>
    if m.top.connective = c then .ok ⟨next.adopt m.top.close, rest⟩
    else .error (.mismatchedEnd c m.top.connective)

theorem pop_cons (top next : Frame) (rest : List Frame) (c : Connective) :
    (⟨top, next :: rest⟩ : FrameStack).pop c =
      if top.connective = c then .ok ⟨next.adopt top.close, rest⟩
      else .error (.mismatchedEnd c top.connective) := rfl

/-- Changes the filters of the top frame under its connective. -/
def edit (m : FrameStack) (e : Edit) : Except QueryError FrameStack := do
  let s ← e.change m.top.connective m.top.predicates
  return { m with top := { m.top with predicates := s } }

/-- Makes a call. -/
def apply (m : FrameStack) : Edit → Except QueryError FrameStack
  | .openGroup c => .ok (m.push c)
  | .closeGroup c => m.pop c
  | e => m.edit e

/-- The stack after a call.  A call that fails leaves it as it was. -/
def call (m : FrameStack) (e : Edit) : FrameStack := (m.apply e).toOption.getD m

/-- The outermost group when a frame and the frames below it are finished. -/
def finish (top : Frame) : List Frame → GroupTree
  | [] => top.close
  | next :: rest => finish (next.adopt top.close) rest

/-- The group that is left when all frames are finished. -/
def closeAll (m : FrameStack) : GroupTree := finish m.top m.below

end FrameStack

/-! ## Calls on filters -/

namespace Edit

/-- Whether a call is on the sort keys. -/
def onSortKeys : Edit → Bool
  | orderBy _ => true
  | setDirection _ => true
  | _ => false

/-- Whether a call is on the filters of the current group. -/
def onFilters : Edit → Bool
  | openGroup _ => false
  | closeGroup _ => false
  | orderBy _ => false
  | setDirection _ => false
  | _ => true

end Edit

/-- A change of one group is known by what it makes of the filters that stand there. -/
theorem Tree.modifyPredicates_congr (t : Tree) (id : NodeId) {f g : PredicateSet → PredicateSet}
    (h : f (t.node id).predicates = g (t.node id).predicates) :
    t.modifyPredicates id f = t.modifyPredicates id g := by
  refine Tree.ext_toList (List.ext_getElem? fun i => ?_)
  rw [Tree.modifyPredicates, Tree.modifyPredicates, Array.toList_modify, Array.toList_modify,
    List.getElem?_modify, List.getElem?_modify]
  cases hn : t.nodes.toList[i]? with
  | none => rfl
  | some n =>
    by_cases hi : id = i
    · subst hi
      have hnode : t.node id = n := by
        rw [Tree.node, ← Array.getElem?_toList, hn, Option.getD_some]
      rw [hnode] at h
      simp [h]
    · simp [hi]

namespace Query

variable {q : Query} {m : FrameStack} {e : Edit}

theorem modify_congr {f g : PredicateSet → PredicateSet} (h : f q.predicates = g q.predicates) :
    q.modify f = q.modify g := by
  rw [modify, modify, q.tree.modifyPredicates_congr q.current h]

/-- A call on filters looks at the current group and writes there, and nowhere else. -/
theorem apply_of_onFilters (he : e.onFilters = true) :
    q.apply e =
      (e.change q.group.connective q.predicates).map fun s => q.modify fun _ => s := by
  cases e with
  | openGroup c => cases he
  | closeGroup c => cases he
  | orderBy p => cases he
  | setDirection d => cases he
  | setTerm d t fits =>
    rw [apply, setTerm, Edit.change]
    split
    · rfl
    · cases q.predicates.checkCandidates q.group.connective false d with
      | error err => rfl
      | ok _ => exact congrArg Except.ok (modify_congr rfl)
  | setExpression d expression allowed =>
    rw [apply, setExpression, Edit.change]
    cases q.predicates.checkCandidates q.group.connective true d with
    | error err => rfl
    | ok _ => exact congrArg Except.ok (modify_congr rfl)
  | setFlag f =>
    rw [apply, setFlag, Edit.change]
    split
    · cases q.predicates.checkAssignedTasks with
      | error err => rfl
      | ok _ => exact congrArg Except.ok (modify_congr rfl)
    · exact congrArg Except.ok (modify_congr rfl)
  | addVariable p => exact congrArg Except.ok (modify_congr rfl)
  | compareVariable name operator raw scope isLocal =>
    rw [apply, compareVariable, Edit.change]
    cases VariablePredicate.ofRaw name raw operator scope isLocal with
    | error err => rfl
    | ok p => exact congrArg Except.ok (modify_congr rfl)

/-- A call on sort keys leaves the groups as they are. -/
theorem tree_of_onSortKeys (he : e.onSortKeys = true) :
    ∃ keys, q.call e = { q with sortKeys := keys } := by
  cases e with
  | orderBy p =>
    rw [call, apply, orderBy]
    split
    · exact ⟨_, rfl⟩
    · split
      · exact ⟨_, rfl⟩
      · exact ⟨_, rfl⟩
  | setDirection d =>
    rw [call, apply, setDirection]
    split
    · exact ⟨_, rfl⟩
    · exact ⟨_, rfl⟩
  | _ => cases he

end Query

/-! ## Open groups as frames -/

namespace OpenGroup

/-- An open group as a frame. -/
def frame (g : OpenGroup) : Frame := ⟨g.connective, g.predicates, g.below.groups⟩

@[simp] theorem connective_frame (g : OpenGroup) : g.frame.connective = g.connective := rfl

theorem frame_adopt (outer inner : OpenGroup) :
    (outer.adopt inner).frame = outer.frame.adopt inner.frame.close := by
  rw [frame, adopt, Forest.groups_append]
  rfl

/-- Closing the groups around a group finishes their frames. -/
theorem close_frame_closeAll (g : OpenGroup) (outer : List OpenGroup) :
    (g.closeAll outer).frame.close = FrameStack.finish g.frame (outer.map frame) := by
  induction outer generalizing g with
  | nil => rfl
  | cons o rest ih => rw [closeAll, ih, List.map_cons, FrameStack.finish, frame_adopt]

/-- A group that is open within others is as deep as there are groups around it. -/
theorem depth_position (g : OpenGroup) (outer : List OpenGroup) :
    (g.tree outer).depth (position outer) = outer.length := by
  induction outer generalizing g with
  | nil => exact Tree.depth_of_root rfl
  | cons o rest ih =>
    have hparent : ((g.tree (o :: rest)).node (position (o :: rest))).parent =
        some (position rest) := by
      rw [node_tree_cons]
    have hfirst : (g.tree (o :: rest)).ParentsFirst := Tree.parentsFirst_ofForest _ _
    rw [Tree.depth_of_parent hfirst hparent, tree_cons, ih, List.length_cons]

end OpenGroup

/-! ## The simulation -/

namespace Query

variable {q : Query} {m : FrameStack} {e : Edit}

/-- A stack has one frame for each open group of a query. -/
def Tracks (q : Query) (m : FrameStack) : Prop :=
  ∃ g outer, q.Shows g outer ∧ m = ⟨g.frame, outer.map OpenGroup.frame⟩

/-- A call on a query and on a stack: both fail for the same reason, or both go on and are still
related. -/
inductive Matches : Except QueryError Query → Except QueryError FrameStack → Prop
  | failed (err : QueryError) : Matches (.error err) (.error err)
  | done {q : Query} {m : FrameStack} (h : q.Tracks m) : Matches (.ok q) (.ok m)

theorem Tracks.start : Query.new.Tracks .start := ⟨.blank .and, [], Shows.new, rfl⟩

theorem Tracks.closeGroup (h : q.Tracks m) (c : Connective) :
    Matches (q.closeGroup c) (m.pop c) := by
  obtain ⟨g, outer, hshows, rfl⟩ := h
  rw [Query.closeGroup, hshows.connective]
  split
  · rename_i hparent
    cases outer with
    | nil => exact .failed _
    | cons o rest =>
      -- a group within another one has a parent
      rw [group, hshows.tree, hshows.current, OpenGroup.node_tree_cons] at hparent
      cases hparent
  · rename_i parent hparent
    obtain ⟨o, rest, rfl, hclosed⟩ := hshows.closeGroup hparent
    rw [List.map_cons, FrameStack.pop_cons, ← OpenGroup.frame_adopt, OpenGroup.connective_frame]
    split
    · exact .done ⟨_, _, hclosed, rfl⟩
    · exact .failed _

theorem Tracks.edit (h : q.Tracks m) (he : e.onFilters = true) :
    Matches (q.apply e) (m.edit e) := by
  obtain ⟨g, outer, hshows, rfl⟩ := h
  rw [apply_of_onFilters he, hshows.connective, hshows.predicates, FrameStack.edit]
  change Matches _ (e.change g.connective g.predicates >>= _)
  cases e.change g.connective g.predicates with
  | error err => exact .failed err
  | ok s => exact .done ⟨_, outer, hshows.modify fun _ => s, rfl⟩

/-- The step: every call on groups and filters agrees. -/
theorem Tracks.apply (h : q.Tracks m) (he : e.onSortKeys = false) :
    Matches (q.apply e) (m.apply e) := by
  cases e with
  | openGroup c =>
    obtain ⟨g, outer, hshows, rfl⟩ := h
    exact .done ⟨.blank c, g :: outer, hshows.openGroup c, rfl⟩
  | closeGroup c => exact h.closeGroup c
  | orderBy p => cases he
  | setDirection d => cases he
  | _ => exact h.edit rfl

theorem Tracks.call (h : q.Tracks m) (e : Edit) : (q.call e).Tracks (m.call e) := by
  cases he : e.onSortKeys with
  | false =>
    have hagree := h.apply he
    rw [Query.call, FrameStack.call]
    generalize q.apply e = x, m.apply e = y at hagree
    cases hagree with
    | failed err => exact h
    | done hdone => exact hdone
  | true =>
    obtain ⟨keys, hkeys⟩ := tree_of_onSortKeys (q := q) he
    -- the stack has no sort keys, so it does not move
    have hm : m.call e = m := by
      cases e with
      | orderBy p => rfl
      | setDirection d => rfl
      | _ => cases he
    obtain ⟨g, outer, hshows, rfl⟩ := h
    rw [hkeys, hm]
    exact ⟨g, outer, hshows.sortKeys keys, rfl⟩

/-- The run: after any calls, those that fail included, the stack has the open groups. -/
theorem Tracks.foldl_call (h : q.Tracks m) (edits : List Edit) :
    (edits.foldl Query.call q).Tracks (edits.foldl FrameStack.call m) := by
  induction edits generalizing q m with
  | nil => exact h
  | cons e edits ih => exact ih (h.call e)

/-! ## Reading the stack -/

theorem Tracks.ascending (h : q.Tracks m) : q.tree.Ascending := by
  obtain ⟨g, outer, hshows, -⟩ := h
  rw [hshows.tree]
  exact Tree.ascending_ofForest _ _

theorem Tracks.unfold_root (h : q.Tracks m) : q.tree.unfold Tree.root = m.closeAll := by
  obtain ⟨g, outer, hshows, rfl⟩ := h
  rw [hshows.tree, OpenGroup.tree, Tree.unfold_root_ofForest, ← hshows.root]
  exact OpenGroup.close_frame_closeAll g outer

theorem Tracks.depth_current (h : q.Tracks m) : q.tree.depth q.current = m.below.length := by
  obtain ⟨g, outer, hshows, rfl⟩ := h
  rw [hshows.tree, hshows.current, OpenGroup.depth_position, List.length_map]

theorem Tracks.isAtRoot_iff (h : q.Tracks m) : q.isAtRoot = true ↔ m.below = [] := by
  obtain ⟨g, outer, hshows, rfl⟩ := h
  rw [hshows.isAtRoot, List.isEmpty_iff, List.map_eq_nil_iff]

/-- The calls that close groups fail for reasons of structure only. -/
theorem kind_of_closeGroup {c : Connective} {err : QueryError} (h : q.closeGroup c = .error err) :
    err.kind = .structural := by
  rw [closeGroup] at h
  split at h
  · cases h
    rfl
  · split at h
    · cases h
    · cases h
      rfl

/-- Calls that match have the same outcome, apart from what they lead to. -/
theorem Matches.outcome {x : Except QueryError Query} {y : Except QueryError FrameStack}
    (h : Matches x y) : x.map (fun _ => ()) = y.map fun _ => () := by
  cases h with
  | failed err => rfl
  | done _ => rfl

/-- A query and the stack that makes the same calls, those that fail included.  The next call has
the same outcome on both, closing a group fails for reasons of structure only, the current group
is as deep as there are open frames below the top one, and the tree from the root downwards is what
finishing all frames leaves.  Sort keys are no part of the stack, so the calls on them are only
followed, not compared. -/
theorem calls_simulated (edits : List Edit) :
    let q := edits.foldl Query.call .new
    let m := edits.foldl FrameStack.call .start
    (∀ e, e.onSortKeys = false → (q.apply e).map (fun _ => ()) = (m.apply e).map fun _ => ()) ∧
      (∀ c err, q.apply (.closeGroup c) = .error err → err.kind = .structural) ∧
      q.tree.depth q.current = m.below.length ∧
      (q.isAtRoot = true ↔ m.below = []) ∧
      (∀ id : Nat, q.tree.unfold id = .node (q.tree.node id).connective
        (q.tree.node id).predicates ((q.tree.node id).children.map q.tree.unfold)) ∧
      q.tree.unfold Tree.root = m.closeAll := by
  intro q m
  have htracks : q.Tracks m := Tracks.start.foldl_call edits
  refine ⟨?_, ?_, htracks.depth_current, htracks.isAtRoot_iff, ?_, htracks.unfold_root⟩
  · intro e he
    exact (htracks.apply he).outcome
  · intro c err herr
    exact kind_of_closeGroup herr
  · exact Tree.unfold_eq htracks.ascending

/-- An AND group within an OR group, after a call that does not fit an OR group and one that closes
more groups than are open. -/
theorem calls_simulated_built :
    let edits : List Edit := [.openGroup .or, .setFlag .unassigned, .closeGroup .and,
      .setTerm .owner (.text "ada") rfl, .closeGroup .or, .closeGroup .and, .openGroup .or,
      .openGroup .and]
    let q := edits.foldl Query.call .new
    let m := edits.foldl FrameStack.call .start
    (Edit.closeGroup .or).onSortKeys = false ∧
      (q.apply (.closeGroup .or)).map (fun _ => ()) = .error (.mismatchedEnd .or .and) ∧
      (QueryError.mismatchedEnd .or .and).kind = .structural ∧
      (q.tree.depth q.current = 2 ∧ m.below.length = 2) ∧
      (q.isAtRoot = false ∧ m.below ≠ []) ∧
      q.tree.unfold Tree.root = m.closeAll := by
  intro edits q m
  obtain ⟨houtcome, hkind, hdepth, hroot, -, hunfold⟩ := calls_simulated edits
  have hbelow : m.below.length = 2 := rfl
  have hclose : q.apply (.closeGroup .or) = .error (.mismatchedEnd .or .and) := rfl
  have hnotRoot : q.isAtRoot = false := rfl
  refine ⟨rfl, (houtcome _ rfl).trans rfl, hkind _ _ hclose, ⟨hdepth.trans hbelow, hbelow⟩,
    ⟨hnotRoot, fun h => ?_⟩, hunfold⟩
  rw [h] at hbelow
  cases hbelow

end Query

end Worklist
