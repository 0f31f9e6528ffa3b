import Worklist.Proofs.Criteria.Nesting
import Worklist.Proofs.Sql.Reading

/-!
# What a clause means

The clause of a compiled query as tokens, in which each filter of a group is
an atom, and what these tokens stand for under the precedence of SQL.  The
condition that is read combines the atoms of every group as the evaluation
combines the outcomes of its filters: whatever the truth values of the atoms
are, the condition holds exactly if the evaluation gives true when it takes a
filter as true whose atom holds.

* `spell_tokens` and `atoms_tokens` tie the tokens to the text and to the
  filters, `reads_tokens` to their condition.
* `truth_skeleton` compares the condition with the evaluation by recursion,
  and `holds_of_taken` the recursion with the loop.
* `clause_meaning` is the result for reachable queries.
-/

namespace Worklist

open Sql

namespace Criteria

variable {c : Criteria}

/-! ## Tokens and their text -/

/-- The tokens of a group: an atom for each of its filters, then its children in brackets. -/
def tokens (c : Criteria) : NodeId → List Token :=
  c.tree.fold fun id below =>
    joinedTokens (c.tree.node id).connective
      ((List.range (c.parts id).length).map (fun i => [.atom id i]) ++
        below.map fun ts => .openBracket :: (ts ++ [.closeBracket]))

/-- The text of a token; that of an atom is the condition of the filter. -/
def spellToken (c : Criteria) : Token → String
  | .atom group index => (((c.parts group)[index]?).map Condition.text).getD ""
  | .connective .and => " AND "
  | .connective .or => " OR "
  | .openBracket => "("
  | .closeBracket => ")"

/-- Clauses separate their parts by the words of the connective. -/
theorem spellToken_connective (c : Criteria) (connective : Connective) :
    c.spellToken (.connective connective) = separator connective := by
  cases connective <;> rfl

/-- The text of tokens. -/
def spell (c : Criteria) : List Token → String
  | [] => ""
  | t :: ts => c.spellToken t ++ c.spell ts

theorem spell_append (ts us : List Token) : c.spell (ts ++ us) = c.spell ts ++ c.spell us := by
  induction ts with
  | nil => rw [List.nil_append, spell, String.empty_append]
  | cons t ts ih => rw [List.cons_append, spell, spell, ih, String.append_assoc]

theorem spell_joinedTokens (connective : Connective) (tss : List (List Token)) :
    c.spell (joinedTokens connective tss) = joined (separator connective) (tss.map c.spell) := by
  cases tss with
  | nil => simp [joinedTokens, spell, joined]
  | cons ts tss =>
    rw [joinedTokens, spell_append, List.map_cons, joined_cons]
    congr 1
    induction tss with
    | nil => rfl
    | cons us tss ih =>
      rw [List.flatMap_cons, spell_append, ih, List.map_cons, followed, spell, if_pos rfl,
        spellToken_connective]

/-- The atoms of a group spell its filters. -/
theorem spell_atoms (c : Criteria) (id : Nat) :
    (List.range (c.parts id).length).map (fun i => c.spell [.atom id i]) =
      (c.parts id).map Condition.text := by
  refine List.ext_getElem (by simp) ?_
  intro i hi _
  have hlt : i < (c.parts id).length := by simpa using hi
  simp [spell, spellToken, hlt]

theorem spell_tokens (ht : c.tree.Ascending) (id : Nat) :
    c.spell (c.tokens id) = c.nestedText id := by
  refine Tree.fold_map ht c.spell ?_ id
  intro id below
  rw [spell_joinedTokens, List.map_append, List.map_map, List.map_map, List.map_map,
    ← spell_atoms]
  congr 2
  refine List.map_congr_left fun ts _ => ?_
  simp only [Function.comp, spell, spell_append, bracketed, spellToken, String.append_empty,
    String.append_assoc]

/-! ## Tokens and the filters -/

/-- The group and the number of an atom. -/
def atom? : Token → Option (Nat × Nat)
  | .atom group index => some (group, index)
  | _ => none

/-- The atoms among tokens. -/
def atoms (ts : List Token) : List (Nat × Nat) := ts.filterMap atom?

theorem atoms_joinedTokens (connective : Connective) (tss : List (List Token)) :
    atoms (joinedTokens connective tss) = (tss.map atoms).flatten := by
  cases tss with
  | nil => rfl
  | cons ts tss =>
    rw [joinedTokens, atoms, List.filterMap_append, List.map_cons, List.flatten_cons]
    congr 1
    induction tss with
    | nil => rfl
    | cons us tss ih =>
      rw [List.flatMap_cons, List.filterMap_append, ih, List.map_cons, List.flatten_cons]
      rfl

/-- Every filter of every group is one atom, in the order in which clauses are written. -/
theorem atoms_tokens (ht : c.tree.Ascending) (id : Nat) :
    atoms (c.tokens id) =
      (c.tree.subtree id).flatMap fun id => (List.range (c.parts id).length).map (id, ·) := by
  rw [Tree.flatMap_subtree ht]
  refine Tree.fold_map ht atoms ?_ id
  intro id below
  have hown : ((List.range (c.parts id).length).map fun i => atoms [.atom id i]).flatten =
      (List.range (c.parts id).length).map (id, ·) := by
    rw [List.map_eq_flatMap (f := (id, ·)), List.flatMap_def]
    rfl
  have hbelow : (below.map fun ts => atoms (.openBracket :: (ts ++ [.closeBracket]))) =
      below.map atoms := by
    refine List.map_congr_left fun ts _ => ?_
    rw [atoms, List.filterMap_cons_none rfl, List.filterMap_append]
    exact List.append_nil _
  rw [atoms_joinedTokens, List.map_append, List.flatten_append, List.map_map, List.map_map,
    ← hown, ← hbelow]
  rfl

/-! ## Tokens and their condition -/

/-- The condition of a group: its atoms and its children, joined by its connective. -/
def skeleton (c : Criteria) : NodeId → Skeleton :=
  c.tree.fold fun id below =>
    .joined (c.tree.node id).connective
      ((List.range (c.parts id).length).map (.atom id) ++ below)

theorem skeleton_eq (ht : c.tree.Ascending) (id : Nat) :
    c.skeleton id = .joined (c.tree.node id).connective
      ((List.range (c.parts id).length).map (.atom id) ++
        (c.tree.node id).children.map c.skeleton) := by
  rw [skeleton, Tree.fold_eq ht]

theorem tokens_eq (ht : c.tree.Ascending) (id : Nat) :
    c.tokens id = joinedTokens (c.tree.node id).connective
      ((List.range (c.parts id).length).map (fun i => [.atom id i]) ++
        (c.tree.node id).children.map fun child =>
          .openBracket :: (c.tokens child ++ [.closeBracket])) := by
  rw [tokens, Tree.fold_eq ht, List.map_map]
  rfl

variable {s : PredicateSet} {f : Forest}

/-- A group below another one has something to write. -/
theorem Lays.parts_or_children (h : c.Lays s f) {id child : Nat}
    (hc : child ∈ (c.tree.node id).children) :
    c.parts child ≠ [] ∨ (c.tree.node child).children ≠ [] := by
  rcases h.full_node hc with hchildren | hempty
  · refine .inr ?_
    intro hnil
    rw [hnil] at hchildren
    cases hchildren
  · refine .inl ?_
    intro hnil
    rw [parts, List.map_eq_nil_iff] at hnil
    rw [(h.sound_node child).isEmpty_of_filters hnil] at hempty
    cases hempty

/-- A group with something to write can be read; the induction gives the readings of its
children, which stand in brackets. -/
theorem Lays.reading_tokens (h : c.Lays s f) (id : Nat)
    (hne : c.parts id ≠ [] ∨ (c.tree.node id).children ≠ []) :
    Reading .disjunction (c.tokens id) (c.skeleton id) := by
  induction id using h.ascending.induction with
  | step id ih =>
    let pairs : List (List Token × Skeleton) :=
      (List.range (c.parts id).length).map (fun i => ([.atom id i], .atom id i)) ++
        (c.tree.node id).children.map fun child =>
          (.openBracket :: (c.tokens child ++ [.closeBracket]), c.skeleton child)
    have hpairs : pairs ≠ [] := by
      rw [ne_eq, List.append_eq_nil_iff, List.map_eq_nil_iff, List.map_eq_nil_iff,
        List.range_eq_nil, List.length_eq_zero_iff]
      rintro ⟨hparts, hchildren⟩
      rcases hne with hne | hne
      · exact hne hparts
      · exact hne hchildren
    have hfactors : ∀ p ∈ pairs, Reading .factor p.1 p.2 := by
      intro p hp
      rw [List.mem_append, List.mem_map, List.mem_map] at hp
      rcases hp with ⟨i, -, rfl⟩ | ⟨child, hchild, rfl⟩
      · exact .atom id i
      · exact .bracket (ih child hchild (h.parts_or_children hchild))
    have hreading := reading_joined (c.tree.node id).connective hpairs hfactors
    rw [tokens_eq h.ascending, skeleton_eq h.ascending]
    simpa only [pairs, List.map_append, List.map_map, Function.comp_def] using hreading

theorem Lays.reads_tokens (h : c.Lays s f) :
    Reads (c.tokens Tree.root) (c.skeleton Tree.root) := by
  by_cases hne : c.parts Tree.root ≠ [] ∨ (c.tree.node Tree.root).children ≠ []
  · exact .clause (h.reading_tokens Tree.root hne)
  · have hparts : c.parts Tree.root = [] := by
      simpa using (not_or.1 hne).1
    have hchildren : (c.tree.node Tree.root).children = [] := by
      simpa using (not_or.1 hne).2
    rw [tokens_eq h.ascending, skeleton_eq h.ascending, hparts, hchildren]
    exact .nothing

/-! ## The condition and the evaluation -/

/-- The outcomes of the filters of a group when a filter counts as true whose atom holds. -/
def taken (c : Criteria) (v : Nat → Nat → Truth) (id : NodeId) : List Bool :=
  (List.range (c.parts id).length).map fun i => decide (v id i = .holds)

theorem truth_skeleton (ht : c.tree.Ascending) (v : Nat → Nat → Truth) (id : Nat) :
    (c.skeleton id).truth v = .holds ↔ c.tree.outcome (c.taken v) id = true := by
  induction id using ht.induction with
  | step id ih =>
    rw [skeleton_eq ht, Skeleton.truth_joined, Truth.join_eq_holds, Tree.outcome_eq ht, taken]
    have hchildren : (c.tree.node id).children.map
        (fun child => decide ((c.skeleton child).truth v = .holds)) =
          (c.tree.node id).children.map (c.tree.outcome (c.taken v)) := by
      refine List.map_congr_left fun child hchild => ?_
      rw [Bool.eq_iff_iff, decide_eq_true_iff]
      exact ih child hchild
    rw [← hchildren, List.map_append, List.map_append, List.map_map, List.map_map, List.map_map,
      List.map_map]
    rfl

/-- The evaluation gives the outcome of the root when the filters come out as taken. -/
theorem Lays.holds_of_taken (h : c.Lays s f) {resolve : ExpressionResolver} {task : Task}
    {own : NodeId → List Bool}
    (hown : ∀ id < c.tree.size,
      c.ownOutcomes resolve task (c.tree.node id).predicates = .ok (own id)) :
    c.holds resolve task = .ok (c.tree.outcome own Tree.root) := by
  obtain ⟨outcomes, heval, hat⟩ := Tree.evaluate_spec h.ascending h.preorder hown
  have hroot : outcomes[Tree.root]? = some (c.tree.outcome own Tree.root) := by
    refine hat Tree.root ?_
    rw [h.size, Tree.root]
    omega
  rw [holds, heval, ok_bind, hroot]
  rfl

/-- The outcomes of a group are as many as its conditions. -/
theorem length_ownOutcomes {resolve : ExpressionResolver} {task : Task} {id : NodeId}
    {results : List Bool}
    (h : c.ownOutcomes resolve task (c.tree.node id).predicates = .ok results) :
    results.length = (c.parts id).length := by
  rw [ownOutcomes_eq] at h
  rw [length_of_mapM h, parts, List.length_map]

/-- The clause of a reachable query means what the evaluation computes.

Its text is spelled by tokens in which every filter is one atom, in order, and these can be read
under the precedence of SQL in exactly one way.  Whatever the atoms are, the condition that is
read holds exactly if the recursion over the groups gives true, where a filter counts as true if
its atom holds; and the loop of the evaluation computes that recursion. -/
theorem clause_meaning {q : Query} (hq : q.Reachable) {identity : IdentityResolver}
    {config : Config} (hc : q.compile identity config = .ok c) :
    (c.spell (c.tokens Tree.root) = c.clause.text ∧
      atoms (c.tokens Tree.root) = (c.tree.subtree Tree.root).flatMap fun id =>
        (List.range (c.parts id).length).map (id, ·)) ∧
    (∀ resolve task id results,
      c.ownOutcomes resolve task (c.tree.node id).predicates = .ok results →
        results.length = (c.parts id).length) ∧
    ∃ e, Reads (c.tokens Tree.root) e ∧ (∀ e', Reads (c.tokens Tree.root) e' → e' = e) ∧
      ∀ v : Nat → Nat → Truth,
        (∀ id : NodeId, c.tree.outcome (c.taken v) id =
          (c.tree.node id).connective.combine
            (c.taken v id ++ (c.tree.node id).children.map (c.tree.outcome (c.taken v)))) ∧
        (e.truth v = .holds ↔ c.tree.outcome (c.taken v) Tree.root = true) ∧
        (∃ outcomes, c.tree.evaluate (fun id => .ok (c.taken v id)) = .ok outcomes ∧
          ∀ id < c.tree.size, outcomes[id]? = some (c.tree.outcome (c.taken v) id)) ∧
        ∀ resolve task,
          (∀ id < c.tree.size,
            c.ownOutcomes resolve task (c.tree.node id).predicates = .ok (c.taken v id)) →
          c.holds resolve task = .ok (c.tree.outcome (c.taken v) Tree.root) := by
  obtain ⟨s, f, h⟩ := hq.lays hc
  have ht := h.ascending
  have htext : c.spell (c.tokens Tree.root) = c.clause.text := by
    rw [spell_tokens ht, h.text_clause]
  refine ⟨⟨htext, atoms_tokens ht Tree.root⟩, fun _ _ _ _ => length_ownOutcomes,
    c.skeleton Tree.root, h.reads_tokens, fun e' he' => he'.unique h.reads_tokens, ?_⟩
  intro v
  exact ⟨Tree.outcome_eq ht (c.taken v), truth_skeleton ht v Tree.root,
    Tree.evaluate_spec ht h.preorder fun _ _ => rfl, fun _ _ => h.holds_of_taken⟩

/-- A disjunction within the conjunction of the root: its text, its tokens and the condition that is
read. -/
theorem clause_meaning_built :
    ∃ (q : Query) (c : Criteria), q.Reachable ∧ q.compile (fun _ => []) {} = .ok c ∧
      c.tokens Tree.root = [.atom 0 0, .connective .and, .openBracket, .atom 1 0, .connective .or,
        .atom 1 1, .closeBracket] ∧
      c.spell (c.tokens Tree.root) = c.clause.text ∧
      c.clause.text = "RES.OWNER_ = ? AND (RES.NAME_ = ? OR RES.NAME_ = ?)" ∧
      let e : Skeleton := .both (.atom 0 0) (.either (.atom 1 0) (.atom 1 1))
      Reads (c.tokens Tree.root) e ∧
        ∀ v, e.truth v = .holds ↔ c.tree.outcome (c.taken v) Tree.root = true := by
  let q := Query.built [.setTerm .owner (.text "ada") rfl, .openGroup .or,
    .setTerm .name (.text "check") rfl, .setTerm .name (.text "sign") rfl, .closeGroup .or]
  let ts : List Token := [.atom 0 0, .connective .and, .openBracket, .atom 1 0, .connective .or,
    .atom 1 1, .closeBracket]
  have hok : (q.compile (fun _ => []) {}).toOption.map
      (fun c => (c.tokens Tree.root, c.clause.text)) =
        some (ts, "RES.OWNER_ = ? AND (RES.NAME_ = ? OR RES.NAME_ = ?)") := by decide +kernel
  have hq : q.Reachable := Query.reachable_built _
  obtain ⟨c, hc, heq⟩ := Option.map_eq_some_iff.1 hok
  rw [toOption_eq_some] at hc
  obtain ⟨htokens, htext⟩ := Prod.mk.inj heq
  obtain ⟨⟨hspell, -⟩, -, e, hreads, -, hv⟩ := clause_meaning hq hc
  have hparse : parse ts = some e := by
    rw [← htokens]
    exact parse_of_reads hreads
  obtain rfl : .both (.atom 0 0) (.either (.atom 1 0) (.atom 1 1)) = e :=
    Option.some.inj ((show _ = parse ts from rfl).trans hparse)
  exact ⟨q, c, hq, hc, htokens, hspell, htext, hreads, fun v => (hv v).2.1⟩

end Criteria

end Worklist
