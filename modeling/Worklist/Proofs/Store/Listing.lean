import Worklist.Proofs.Query.Step
import Worklist.Proofs.Sorting.Stable

/-!
# Listing, paging and counting

A store answers a compiled query from the tasks that satisfy it: a count is their number, and a
listing is a window of them in their order.

* `filterM_of_ok` and `filterM_of_error` are the two ways in which the tasks are gone through: all
  evaluations succeed, or the first one that fails decides.
* `compareByKeys_directed` and `sortKeys_of_compile` say that compiling keeps the order, and
  `window_clamp` what the settings make of a page.
* `flatten_windows` is the induction over pages of one size that follow each other.
* `listing_agrees` is the result for every query that compiles and every store.
-/

namespace Worklist

/-! ## Going through the tasks -/

section Filtering

variable {ε α : Type} {p : α → Except ε Bool} {xs : List α}

theorem filterAuxM_of_ok {q : α → Bool} (h : ∀ x ∈ xs, p x = .ok (q x)) (found : List α) :
    xs.filterAuxM p found = .ok ((xs.filter q).reverse ++ found) := by
  induction xs generalizing found with
  | nil => rfl
  | cons x xs ih =>
    rw [List.forall_mem_cons] at h
    rw [List.filterAuxM, h.1, ok_bind, ih h.2, List.filter_cons]
    cases q x with
    | true => rw [cond_true, if_pos rfl, List.reverse_cons, List.append_assoc]; rfl
    | false => rfl

/-- If all tests succeed, what is found is in the order of the list. -/
theorem filterM_of_ok {q : α → Bool} (h : ∀ x ∈ xs, p x = .ok (q x)) :
    xs.filterM p = .ok (xs.filter q) := by
  rw [List.filterM, filterAuxM_of_ok h, ok_bind, List.append_nil, List.reverse_reverse]
  rfl

theorem filterAuxM_of_error {before after : List α} {x : α} {e : ε}
    (hbefore : ∀ y ∈ before, ∃ b, p y = .ok b) (hx : p x = .error e) (found : List α) :
    (before ++ x :: after).filterAuxM p found = .error e := by
  induction before generalizing found with
  | nil => rw [List.nil_append, List.filterAuxM, hx, error_bind]
  | cons y before ih =>
    rw [List.forall_mem_cons] at hbefore
    obtain ⟨b, hy⟩ := hbefore.1
    rw [List.cons_append, List.filterAuxM, hy, ok_bind, ih hbefore.2]

/-- The first test that fails decides. -/
theorem filterM_of_error {before after : List α} {x : α} {e : ε}
    (hbefore : ∀ y ∈ before, ∃ b, p y = .ok b) (hx : p x = .error e) :
    (before ++ x :: after).filterM p = .error e := by
  rw [List.filterM, filterAuxM_of_error hbefore hx, error_bind]

/-- If some test fails, there is a first one that does. -/
theorem exists_first_error (h : ∃ x ∈ xs, ∃ e, p x = .error e) :
    ∃ before x after e, xs = before ++ x :: after ∧ (∀ y ∈ before, ∃ b, p y = .ok b) ∧
      p x = .error e := by
  induction xs with
  | nil =>
    obtain ⟨x, hx, -⟩ := h
    cases hx
  | cons y ys ih =>
    cases hy : p y with
    | error e => exact ⟨[], y, ys, e, rfl, List.forall_mem_nil _, hy⟩
    | ok b =>
      obtain ⟨x, hx, e, he⟩ := h
      have hmem : x ∈ ys := by
        rcases List.mem_cons.1 hx with rfl | hmem
        · rw [hy] at he
          cases he
        · exact hmem
      obtain ⟨before, x, after, e, rfl, hbefore, he⟩ := ih ⟨x, hmem, e, he⟩
      exact ⟨y :: before, x, after, e, rfl, List.forall_mem_cons.2 ⟨⟨b, hy⟩, hbefore⟩, he⟩

end Filtering

/-! ## Keys and pages of a compiled query -/

/-- A key without a direction sorts as an ascending one. -/
theorem compareTasks_directed (k : SortKey) : k.directed.compareTasks = k.compareTasks := by
  funext a b
  obtain ⟨p, direction⟩ := k
  cases direction <;> rfl

theorem compareByKeys_directed (keys : List SortKey) :
    compareByKeys (keys.map SortKey.directed) = compareByKeys keys := by
  funext a b
  rw [compareByKeys, List.foldr_map]
  simp only [compareTasks_directed, compareByKeys]

theorem sortTasks_of_compile {q : Query} {identity : IdentityResolver} {config : Config}
    {c : Criteria} (h : q.compile identity config = .ok c) :
    sortTasks c.sortKeys = sortTasks q.sortKeys := by
  obtain ⟨⟨⟩, -, h⟩ := bind_eq_ok.1 h
  obtain ⟨slots, -, h⟩ := bind_eq_ok.1 h
  cases h
  funext tasks
  rw [sortTasks, compareByKeys_directed, sortTasks]

theorem toNat_min (m n : UInt32) : (min m n).toNat = min m.toNat n.toNat := by
  rw [Nat.min_def]
  exact apply_ite UInt32.toNat (m ≤ n) m n

/-- What a page shows once the settings have limited it. -/
theorem window_clamp {α : Type} (page : Page) (limit : UInt32) (xs : List α) :
    (page.clamp limit).window xs =
      (xs.drop page.firstResult.toNat).take (min page.maxResults.toNat limit.toNat) := by
  rw [Page.window, Page.clamp, toNat_min]

/-- Windows of one size that follow each other show the list up to the end of the last one. -/
theorem flatten_windows {α : Type} (xs : List α) (k n : Nat) :
    ((List.range n).map fun i => (xs.drop (i * k)).take k).flatten = xs.take (n * k) := by
  induction n with
  | zero => rw [Nat.zero_mul, List.take_zero]; rfl
  | succ n ih =>
    rw [List.range_succ, List.map_append, List.flatten_append, ih, Nat.succ_mul, List.take_add,
      List.map_singleton, List.flatten_singleton]

theorem foldr_length {α : Type} (pages : List (List α)) :
    pages.foldr (fun page total => page.length + total) 0 = pages.flatten.length := by
  induction pages with
  | nil => rfl
  | cons page pages ih => rw [List.foldr_cons, ih, List.flatten_cons, List.length_append]

/-! ## Answers of a store -/

namespace Store

/-- The tasks of a store that satisfy a compiled query, in the order of the store. -/
def selected (s : Store) (c : Criteria) : List Task :=
  s.tasks.filter fun task => (c.holds s.resolve task).toOption.getD false

variable {s : Store} {c : Criteria}

theorem matching_of_ok (h : ∀ task ∈ s.tasks, ∃ b, c.holds s.resolve task = .ok b) :
    s.matching c = .ok (s.selected c) := by
  refine filterM_of_ok fun task htask => ?_
  obtain ⟨b, hb⟩ := h task htask
  rw [hb]
  rfl

theorem matching_of_error {before after : List Task} {task : Task} {e : BackendError}
    (htasks : s.tasks = before ++ task :: after)
    (hbefore : ∀ t ∈ before, ∃ b, c.holds s.resolve t = .ok b)
    (he : c.holds s.resolve task = .error e) : s.matching c = .error e := by
  rw [matching, htasks]
  exact filterM_of_error hbefore he

end Store

variable {q : Query} {identity : IdentityResolver} {config : Config} {c : Criteria}

theorem executeCount_of_compile (h : q.compile identity config = .ok c) (s : Store) :
    q.executeCount s.backend identity config =
      Backend.answer ((s.matching c).map List.length) := by
  rw [Query.executeCount, h, ok_bind]
  change Backend.answer (s.matching c >>= fun tasks => pure tasks.length) = _
  cases s.matching c <;> rfl

theorem executeList_of_compile (h : q.compile identity config = .ok c) (s : Store) (page : Page) :
    q.executeList s.backend identity config page =
      Backend.answer ((s.matching c).map fun tasks =>
        (page.clamp config.maxResults).window (sortTasks q.sortKeys tasks)) := by
  rw [Query.executeList, h, ok_bind, ← sortTasks_of_compile h]
  change Backend.answer (s.matching c >>= fun tasks =>
    pure ((page.clamp config.maxResults).window (sortTasks c.sortKeys tasks))) = _
  cases s.matching c <;> rfl

/-- A page of a size that the settings allow shows a window of that size. -/
theorem executeList_page (h : q.compile identity config = .ok c) {s : Store}
    (hok : ∀ task ∈ s.tasks, ∃ b, c.holds s.resolve task = .ok b) {k : UInt32}
    (hk : k.toNat ≤ config.maxResults.toNat) {start : Nat} (hstart : start < UInt32.size) :
    q.executeList s.backend identity config ⟨.ofNat start, k⟩ =
      .ok (((sortTasks q.sortKeys (s.selected c)).drop start).take k.toNat) := by
  rw [executeList_of_compile h, Store.matching_of_ok hok, Except.map, window_clamp,
    Nat.min_eq_left hk, UInt32.toNat_ofNat_of_lt' hstart]
  rfl

/-- Listing, paging and counting agree on the tasks that satisfy a query.

If the evaluation fails on some task, the failure on the first such task is what the count and every
listing fail with, translated for the caller.  Otherwise the count is the number of tasks that
satisfy the query, and there is one list of them, stably sorted by the keys, of which every page is
a window as long as page and settings allow.  Pages of one size that the settings allow follow each
other without gaps: together they are that list up to where the last one ends, so if they reach far
enough they show every task once, and their lengths add up to the count. -/
theorem listing_agrees (h : q.compile identity config = .ok c) (s : Store) :
    ((∃ task ∈ s.tasks, ∃ e, c.holds s.resolve task = .error e) →
      ∃ before task after e, s.tasks = before ++ task :: after ∧
        (∀ t ∈ before, ∃ b, c.holds s.resolve t = .ok b) ∧
        c.holds s.resolve task = .error e ∧
        q.executeCount s.backend identity config = .error e.toQueryError ∧
        ∀ page, q.executeList s.backend identity config page = .error e.toQueryError) ∧
    ((∀ task ∈ s.tasks, ∃ b, c.holds s.resolve task = .ok b) →
      q.executeCount s.backend identity config = .ok (s.selected c).length ∧
      ∃ sorted, StablySorted q.sortKeys (s.selected c) sorted ∧
        (∀ page : Page, q.executeList s.backend identity config page =
          .ok ((sorted.drop page.firstResult.toNat).take
            (min page.maxResults.toNat config.maxResults.toNat))) ∧
        ∀ (k : UInt32) (n : Nat), k.toNat ≤ config.maxResults.toNat →
          (∀ i < n, i * k.toNat < UInt32.size) →
          ∃ pages, (List.range n).mapM (fun i =>
              q.executeList s.backend identity config ⟨.ofNat (i * k.toNat), k⟩) = .ok pages ∧
            pages.flatten = sorted.take (n * k.toNat) ∧
            ((s.selected c).length ≤ n * k.toNat →
              pages.flatten = sorted ∧ pages.flatten.Perm (s.selected c) ∧
              pages.foldr (fun page total => page.length + total) 0 = (s.selected c).length)) := by
  constructor
  · intro hfails
    obtain ⟨before, task, after, e, htasks, hbefore, he⟩ := exists_first_error hfails
    have hmatching := Store.matching_of_error htasks hbefore he
    refine ⟨before, task, after, e, htasks, hbefore, he, ?_, fun page => ?_⟩
    · rw [executeCount_of_compile h, hmatching]
      rfl
    · rw [executeList_of_compile h, hmatching]
      rfl
  · intro hok
    have hsorted := stablySorted_sortTasks q.sortKeys (s.selected c)
    refine ⟨?_, _, hsorted, fun page => ?_, fun k n hk hstarts => ?_⟩
    · rw [executeCount_of_compile h, Store.matching_of_ok hok]
      rfl
    · rw [executeList_of_compile h, Store.matching_of_ok hok, Except.map, window_clamp]
      rfl
    · refine ⟨_, mapM_eq_ok.2 ?_, flatten_windows _ _ _, fun hreach => ?_⟩
      · rw [List.map_map]
        exact List.map_congr_left fun i hi =>
          executeList_page h hok hk (hstarts i (List.mem_range.1 hi))
      · rw [foldr_length, flatten_windows, List.take_of_length_le]
        · exact ⟨rfl, hsorted.perm, hsorted.perm.length_eq⟩
        · rwa [hsorted.perm.length_eq]

/-- A filter by an expression that one store does not know.  In the other store two of the three
tasks with the assignee that it resolves to have the same priority, and pages hold two tasks. -/
theorem listing_agrees_built :
    ∃ (q : Query) (c : Criteria) (unknown known : Store),
      q.compile (fun _ => []) { maxResults := 2 } = .ok c ∧
      (∃ task ∈ unknown.tasks, ∃ e, c.holds unknown.resolve task = .error e) ∧
      (∃ e, q.executeCount unknown.backend (fun _ => []) { maxResults := 2 } = .error e ∧
        ∀ page, q.executeList unknown.backend (fun _ => []) { maxResults := 2 } page =
          .error e) ∧
      (∀ task ∈ known.tasks, ∃ b, c.holds known.resolve task = .ok b) ∧
      q.executeCount known.backend (fun _ => []) { maxResults := 2 } = .ok 3 ∧
      ∃ pages, (List.range 2).mapM (fun i =>
          q.executeList known.backend (fun _ => []) { maxResults := 2 } ⟨.ofNat (i * 2), 2⟩) =
            .ok pages ∧
        StablySorted [⟨.priority, some .descending⟩] (known.selected c) pages.flatten ∧
        pages.foldr (fun page total => page.length + total) 0 = 3 := by
  let q := Query.built [.setExpression .assignee "who" rfl, .orderBy .priority,
    .setDirection .descending]
  let tasks : List Task := [{ id := "a", assignee := some "ada", priority := 1 },
    { id := "b", assignee := some "bob", priority := 5 },
    { id := "c", assignee := some "ada", priority := 7 },
    { id := "d", assignee := some "ada", priority := 1 }]
  let known : Store := ⟨tasks, [("who", .text "ada")]⟩
  let unknown : Store := ⟨tasks, []⟩
  have houtcomes : ((q.compile (fun _ => []) { maxResults := 2 }).toOption.map fun c =>
      (tasks.map fun task => (c.holds known.resolve task).toOption,
        tasks.map fun task => (c.holds unknown.resolve task).toOption)) =
      some ([some true, some false, some true, some true], [none, none, none, none]) := by
    decide +kernel
  obtain ⟨c, hc, houtcomes⟩ := Option.map_eq_some_iff.1 houtcomes
  obtain ⟨hknown, hunknown⟩ := Prod.mk.inj houtcomes
  rw [toOption_eq_some] at hc
  have hok : ∀ task ∈ known.tasks, ∃ b, c.holds known.resolve task = .ok b := by
    intro task htask
    have hmem := List.mem_map_of_mem (f := fun task => (c.holds known.resolve task).toOption) htask
    rw [hknown] at hmem
    cases hholds : c.holds known.resolve task with
    | ok b => exact ⟨b, rfl⟩
    | error e =>
      simp [hholds, Except.toOption] at hmem
  have hfails : ∃ task ∈ unknown.tasks, ∃ e, c.holds unknown.resolve task = .error e :=
    ⟨_, List.mem_cons_self, toOption_eq_none.1 (List.cons.inj hunknown).1⟩
  have hthree : (known.selected c).length = 3 := by
    have hlength := congrArg (fun outcomes => (outcomes.filter (·.getD false)).length) hknown
    rw [List.filter_map, List.length_map] at hlength
    exact hlength
  obtain ⟨hfailing, -⟩ := listing_agrees hc unknown
  obtain ⟨-, hcounted⟩ := listing_agrees hc known
  obtain ⟨_, _, _, e, -, -, -, hcount, hlist⟩ := hfailing hfails
  obtain ⟨hcount', sorted, hsorted, -, hpages⟩ := hcounted hok
  obtain ⟨pages, hrun, -, hreach⟩ := hpages 2 2 (by decide) (by decide)
  obtain ⟨hflatten, -, hsum⟩ := hreach (by rw [hthree]; decide)
  rw [hthree] at hcount' hsum
  exact ⟨q, c, unknown, known, hc, hfails, ⟨_, hcount, hlist⟩, hok, hcount', pages, hrun,
    hflatten ▸ hsorted, hsum⟩

end Worklist
