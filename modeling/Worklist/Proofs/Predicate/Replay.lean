import Mathlib.Data.List.Induction
import Worklist.Proofs.Predicate.United

/-!
# Changes of a group one after the other

A group may be changed any number of times under one connective.  What it holds afterwards can be
told for every dimension from the changes on that dimension alone.

* `PredicateSet.Change` lists the changes, and `replay` makes them in their order.
* `Entry` is what a group holds for one dimension, and `Put` is what a change puts there.
  `entry_change` is the step and `entry_replay` the run: the changes on other dimensions are of no
  consequence.
* `Leaves` says what puts leave of an entry, by the last of them.  `leaves_iff` says that it leaves
  no choice.
* `replay_law` is the result for every group, those that no sequence of calls builds included.
-/

namespace Worklist.PredicateSet

/-! ## Changes -/

/-- A change of the filters of a group. -/
inductive Change where
  | term (d : Dimension) (t : Term)
  | expression (d : Dimension) (x : String)
  | flag (f : Flag)
  | onVariable (p : VariablePredicate)
  deriving DecidableEq

namespace Change

/-- The dimension that a change is on. -/
def dimension? : Change → Option Dimension
  | term d _ => some d
  | expression d _ => some d
  | _ => none

/-- The variable predicate that a change adds. -/
def added? : Change → Option VariablePredicate
  | onVariable p => some p
  | _ => none

end Change

/-- Makes a change under a connective. -/
def change (c : Connective) (s : PredicateSet) : Change → PredicateSet
  | .term d t => s.setTerm d t c
  | .expression d x => s.setExpression d x
  | .flag f => s.setFlag f
  | .onVariable p => s.addVariable p

/-- Makes changes one after the other. -/
def replay (c : Connective) (s : PredicateSet) (changes : List Change) : PredicateSet :=
  changes.foldl (change c) s

/-! ## Entries -/

/-- What a group holds for one dimension. -/
structure Entry where
  terms : Option (List Term)
  expression : Option String
  deriving DecidableEq

/-- What a change puts on a dimension. -/
inductive Put where
  | term (t : Term)
  | expression (x : String)
  deriving DecidableEq

/-- The entry of a dimension. -/
def entry (s : PredicateSet) (d : Dimension) : Entry := ⟨s.terms.get? d, s.expressions.get? d⟩

/-- What a change puts on a given dimension. -/
def Change.put? (d : Dimension) : Change → Option Put
  | term e t => if e = d then some (.term t) else none
  | expression e x => if e = d then some (.expression x) else none
  | _ => none

/-- What changes put on a dimension, in their order. -/
def putsOn (d : Dimension) (changes : List Change) : List Put := changes.filterMap (Change.put? d)

/-- The entry of a dimension after one put. -/
def Entry.put (c : Connective) (d : Dimension) (e : Entry) : Put → Entry
  | .term t => ⟨some (if replaces d c then [t] else e.terms.getD [] ++ [t]), none⟩
  | .expression x => ⟨none, some x⟩

variable {c : Connective} {d : Dimension} {s : PredicateSet} {start e : Entry} {puts : List Put}
  {x : String} {ts : List Term}

/-- A change that puts nothing on a dimension leaves its entry as it is. -/
theorem entry_change (c : Connective) (s : PredicateSet) (a : Change) (d : Dimension) :
    (s.change c a).entry d = (a.put? d).elim (s.entry d) ((s.entry d).put c d) := by
  cases a with
  | term b t =>
    rw [change, entry, setTerm, Table.get?_set, Table.get?_erase, Change.put?]
    split
    · rename_i hb
      subst hb
      rfl
    · rfl
  | expression b x =>
    rw [change, entry, setExpression, Table.get?_set, Table.get?_erase, Change.put?]
    split <;> rfl
  | flag f => rfl
  | onVariable p => rfl

theorem entry_replay (c : Connective) (s : PredicateSet) (changes : List Change) (d : Dimension) :
    (s.replay c changes).entry d = (putsOn d changes).foldl (Entry.put c d) (s.entry d) := by
  induction changes generalizing s with
  | nil => rfl
  | cons a changes ih =>
    have hstep := ih (s.change c a)
    rw [entry_change] at hstep
    rw [putsOn, List.filterMap_cons]
    cases hput : a.put? d with
    | none => rwa [hput] at hstep
    | some put => rwa [hput] at hstep

/-! ## What is left of an entry -/

/-- What puts leave of the entry that a dimension had before them.  A literal value stands alone in
an AND group and where only one value counts; elsewhere it joins the values put after the last
expression, and those from before if there was no expression. -/
inductive Leaves (c : Connective) (d : Dimension) (start : Entry) : List Put → Entry → Prop where
  | untouched : Leaves c d start [] start
  | expression (puts : List Put) (x : String) :
      Leaves c d start (puts ++ [.expression x]) ⟨none, some x⟩
  | replaced (hsingle : c = .and ∨ d.arity = .single) (puts : List Put) (t : Term) :
      Leaves c d start (puts ++ [.term t]) ⟨some [t], none⟩
  | gathered (hor : c = .or) (hmany : d.arity ≠ .single) (puts : List Put) (x : String)
      {ts : List Term} (hts : ts ≠ []) :
      Leaves c d start (puts ++ .expression x :: ts.map .term) ⟨some ts, none⟩
  | joined (hor : c = .or) (hmany : d.arity ≠ .single) {ts : List Term} (hts : ts ≠ []) :
      Leaves c d start (ts.map .term) ⟨some (start.terms.getD [] ++ ts), none⟩

theorem replaces_iff : replaces d c = true ↔ c = .and ∨ d.arity = .single := by
  rw [replaces, Bool.or_eq_true, beq_iff_eq, beq_iff_eq, or_comm]

theorem replaces_of_or (hor : c = .or) (hmany : d.arity ≠ .single) : replaces d c = false := by
  rw [← Bool.not_eq_true, replaces_iff, hor]
  exact fun h => h.elim nofun hmany

theorem or_of_not_replaces (h : ¬replaces d c = true) : c = .or ∧ d.arity ≠ .single := by
  rw [replaces_iff, not_or] at h
  cases c with
  | and => exact absurd rfl h.1
  | or => exact ⟨rfl, h.2⟩

theorem put_term_of_replaces (h : replaces d c = true) (e : Entry) (t : Term) :
    e.put c d (.term t) = ⟨some [t], none⟩ := by
  rw [Entry.put, if_pos h]

theorem put_term_of_or (hor : c = .or) (hmany : d.arity ≠ .single) (e : Entry) (t : Term) :
    e.put c d (.term t) = ⟨some (e.terms.getD [] ++ [t]), none⟩ := by
  rw [Entry.put, replaces_of_or hor hmany, if_neg Bool.false_ne_true]

/-- One more put, by what the puts before it have left. -/
theorem Leaves.put (h : Leaves c d start puts e) (p : Put) :
    Leaves c d start (puts ++ [p]) (e.put c d p) := by
  cases p with
  | expression x => exact .expression puts x
  | term t =>
    by_cases hreplaces : replaces d c = true
    · rw [put_term_of_replaces hreplaces]
      exact .replaced (replaces_iff.1 hreplaces) puts t
    · obtain ⟨hor, hmany⟩ := or_of_not_replaces hreplaces
      rw [put_term_of_or hor hmany]
      cases h with
      | untouched => exact .joined hor hmany (List.cons_ne_nil t [])
      | expression puts x =>
        rw [List.append_assoc]
        exact .gathered hor hmany puts x (List.cons_ne_nil t [])
      | replaced hsingle => exact absurd (replaces_iff.2 hsingle) hreplaces
      | gathered _ _ puts x hts =>
        rw [List.append_assoc, List.cons_append, ← List.map_singleton, ← List.map_append]
        exact .gathered hor hmany puts x (List.append_ne_nil_of_left_ne_nil hts [t])
      | joined _ _ hts =>
        rw [← List.map_singleton, ← List.map_append, Option.getD_some, List.append_assoc]
        exact .joined hor hmany (List.append_ne_nil_of_left_ne_nil hts [t])

theorem leaves_foldl (c : Connective) (d : Dimension) (start : Entry) (puts : List Put) :
    Leaves c d start puts (puts.foldl (Entry.put c d) start) := by
  induction puts using List.reverseRecOn with
  | nil => exact .untouched
  | append_singleton puts p ih =>
    rw [List.foldl_append]
    exact ih.put p

/-- Values that join each other are all kept. -/
theorem foldl_terms (hor : c = .or) (hmany : d.arity ≠ .single) (hts : ts ≠ []) (e : Entry) :
    (ts.map Put.term).foldl (Entry.put c d) e = ⟨some (e.terms.getD [] ++ ts), none⟩ := by
  induction ts using List.reverseRecOn with
  | nil => exact absurd rfl hts
  | append_singleton ts t ih =>
    rw [List.map_append, List.foldl_append, List.map_singleton, List.foldl_cons, List.foldl_nil,
      put_term_of_or hor hmany]
    cases ts with
    | nil => rfl
    | cons u ts => rw [ih (List.cons_ne_nil u ts), Option.getD_some, List.append_assoc]

/-- What puts leave of an entry is the result of making them in their order. -/
theorem leaves_iff : Leaves c d start puts e ↔ puts.foldl (Entry.put c d) start = e := by
  constructor
  · intro h
    cases h with
    | untouched => rfl
    | expression puts x => rw [List.foldl_append, List.foldl_cons, List.foldl_nil, Entry.put]
    | replaced hsingle puts t =>
      rw [List.foldl_append, List.foldl_cons, List.foldl_nil,
        put_term_of_replaces (replaces_iff.2 hsingle)]
    | gathered hor hmany puts x hts =>
      rw [List.foldl_append, List.foldl_cons, foldl_terms hor hmany hts]
      rfl
    | joined hor hmany hts => exact foldl_terms hor hmany hts start
  · rintro rfl
    exact leaves_foldl c d start puts

/-- A literal value and an expression are not left side by side. -/
theorem Leaves.exclusive (h : Leaves c d start puts e) (hputs : puts ≠ []) :
    e.terms = none ∨ e.expression = none := by
  cases h with
  | untouched => exact absurd rfl hputs
  | expression => exact .inl rfl
  | replaced => exact .inr rfl
  | gathered => exact .inr rfl
  | joined => exact .inr rfl

/-! ## Switches and variables -/

theorem hasFlag_change (c : Connective) (s : PredicateSet) (a : Change) (f : Flag) :
    (s.change c a).hasFlag f = true ↔ s.hasFlag f = true ∨ a = .flag f := by
  cases a with
  | flag g =>
    rw [change, hasFlag_setFlag, Bool.or_eq_true, decide_eq_true_iff, Change.flag.injEq, or_comm]
  | term => exact (or_iff_left nofun).symm
  | expression => exact (or_iff_left nofun).symm
  | onVariable => exact (or_iff_left nofun).symm

theorem hasFlag_replay (c : Connective) (s : PredicateSet) (changes : List Change) (f : Flag) :
    (s.replay c changes).hasFlag f = true ↔ s.hasFlag f = true ∨ .flag f ∈ changes := by
  induction changes generalizing s with
  | nil => exact (or_iff_left List.not_mem_nil).symm
  | cons a changes ih =>
    rw [List.mem_cons, ← or_assoc, eq_comm (a := Change.flag f), ← hasFlag_change]
    exact ih (s.change c a)

theorem variablePredicates_replay (c : Connective) (s : PredicateSet) (changes : List Change) :
    (s.replay c changes).variablePredicates =
      s.variablePredicates ++ changes.filterMap Change.added? := by
  induction changes generalizing s with
  | nil => exact (List.append_nil _).symm
  | cons a changes ih =>
    refine (ih (s.change c a)).trans ?_
    cases a with
    | onVariable p => exact List.append_assoc _ _ _
    | term => rfl
    | expression => rfl
    | flag => rfl

/-! ## Orders of changes -/

/-- The order of changes counts on each dimension and among the variables, and nowhere else. -/
theorem replay_congr (c : Connective) (s : PredicateSet) {changes others : List Change}
    (hputs : ∀ d, putsOn d changes = putsOn d others)
    (hflags : ∀ f, Change.flag f ∈ changes ↔ Change.flag f ∈ others)
    (hvariables : changes.filterMap Change.added? = others.filterMap Change.added?) :
    s.replay c changes = s.replay c others := by
  have hentry (d : Dimension) : (s.replay c changes).entry d = (s.replay c others).entry d := by
    rw [entry_replay, entry_replay, hputs]
  refine ext_entries (fun d => congrArg Entry.terms (hentry d))
    (fun d => congrArg Entry.expression (hentry d)) (fun f => ?_) ?_
  · rw [Bool.eq_iff_iff, hasFlag_replay, hasFlag_replay, hflags]
  · rw [variablePredicates_replay, variablePredicates_replay, hvariables]

theorem put?_of_dimension? {a : Change} {b : Dimension} (ha : a.dimension? = some b)
    (hd : b ≠ d) : a.put? d = none := by
  cases a <;> cases ha <;> exact if_neg hd

theorem added?_of_dimension? {a : Change} {b : Dimension} (ha : a.dimension? = some b) :
    a.added? = none := by
  cases a <;> cases ha <;> rfl

/-- Changes on two dimensions may be exchanged. -/
theorem replay_swap (c : Connective) (s : PredicateSet) (before after : List Change)
    {a b : Change} {d e : Dimension} (ha : a.dimension? = some d) (hb : b.dimension? = some e)
    (hne : d ≠ e) :
    s.replay c (before ++ a :: b :: after) = s.replay c (before ++ b :: a :: after) := by
  refine replay_congr c s (fun k => ?_) (fun f => ?_) ?_
  · -- a dimension cannot be both, so one of the two changes puts nothing on it
    rw [putsOn, putsOn, List.filterMap_append, List.filterMap_append]
    congr 1
    by_cases hk : d = k
    · have hput : b.put? k = none := put?_of_dimension? hb (hk ▸ hne.symm)
      simp only [List.filterMap_cons, hput]
    · have hput : a.put? k = none := put?_of_dimension? ha hk
      simp only [List.filterMap_cons, hput]
  · exact ((List.Perm.swap b a after).append_left before).mem_iff
  · rw [List.filterMap_append, List.filterMap_append,
      List.filterMap_cons_none (added?_of_dimension? ha),
      List.filterMap_cons_none (added?_of_dimension? hb),
      List.filterMap_cons_none (added?_of_dimension? hb),
      List.filterMap_cons_none (added?_of_dimension? ha)]

/-! ## The law -/

/-- A group after any changes under one connective.

Every dimension holds what the changes on it alone leave of its entry, so it is as before if there
are none, and after any of them it does not have values and an expression at once.  A switch is on
if it was on or some change turns it on, and variable predicates are added in the order of the
changes.  Changes on two dimensions may be exchanged, and altogether only the order on each
dimension and among the variables counts. -/
theorem replay_law (c : Connective) (s : PredicateSet) (changes : List Change) :
    (∀ d e, (s.replay c changes).entry d = e ↔ Leaves c d (s.entry d) (putsOn d changes) e) ∧
    (∀ d, putsOn d changes ≠ [] →
      (s.replay c changes).terms.get? d = none ∨ (s.replay c changes).expressions.get? d = none) ∧
    (∀ f, (s.replay c changes).hasFlag f = true ↔ s.hasFlag f = true ∨ .flag f ∈ changes) ∧
    (s.replay c changes).variablePredicates =
      s.variablePredicates ++ changes.filterMap Change.added? ∧
    (∀ before a b after d e, changes = before ++ a :: b :: after → a.dimension? = some d →
      b.dimension? = some e → d ≠ e →
        s.replay c changes = s.replay c (before ++ b :: a :: after)) ∧
    ∀ others, (∀ d, putsOn d changes = putsOn d others) →
      (∀ f, Change.flag f ∈ changes ↔ Change.flag f ∈ others) →
      changes.filterMap Change.added? = others.filterMap Change.added? →
        s.replay c changes = s.replay c others := by
  have hentry (d : Dimension) (e : Entry) : (s.replay c changes).entry d = e ↔
      Leaves c d (s.entry d) (putsOn d changes) e := by
    rw [leaves_iff, entry_replay]
  refine ⟨hentry, fun d hputs => ((hentry d _).1 rfl).exclusive hputs, hasFlag_replay c s changes,
    variablePredicates_replay c s changes, ?_, fun _ => replay_congr c s⟩
  rintro before a b after d e rfl ha hb hne
  exact replay_swap c s before after ha hb hne

/-- Values of an OR group on both sides of an expression, with a name in between. -/
theorem replay_law_interleaved :
    let mixed : List Change := [.term .assignee (.text "a"), .expression .assignee "x",
      .term .assignee (.text "b"), .term .name (.text "n"), .term .assignee (.text "c")]
    (PredicateSet.empty.replay .or mixed).entry .assignee = ⟨some [.text "b", .text "c"], none⟩ ∧
    ((PredicateSet.empty.replay .or mixed).terms.get? .name = none ∨
      (PredicateSet.empty.replay .or mixed).expressions.get? .name = none) ∧
    PredicateSet.empty.replay .or mixed =
      PredicateSet.empty.replay .or [.term .assignee (.text "a"), .expression .assignee "x",
        .term .name (.text "n"), .term .assignee (.text "b"), .term .assignee (.text "c")] ∧
    PredicateSet.empty.replay .or mixed =
      PredicateSet.empty.replay .or [.term .name (.text "n"), .term .assignee (.text "a"),
        .expression .assignee "x", .term .assignee (.text "b"), .term .assignee (.text "c")] := by
  intro mixed
  obtain ⟨hentry, hexclusive, -, -, hswap, hothers⟩ := replay_law .or .empty mixed
  have hmany : Dimension.assignee.arity ≠ .single := by decide
  refine ⟨(hentry .assignee _).2 ?_, hexclusive .name (by decide), ?_, ?_⟩
  · exact .gathered rfl hmany [.term (.text "a")] "x" (List.cons_ne_nil (.text "b") [.text "c"])
  · exact hswap [.term .assignee (.text "a"), .expression .assignee "x"] _ _ _ .assignee .name rfl
      rfl rfl (by decide)
  · refine hothers _ (fun d => ?_) (fun f => ?_) rfl
    · cases d <;> rfl
    · exact iff_of_false (by simp [mixed]) (by simp)

end Worklist.PredicateSet
