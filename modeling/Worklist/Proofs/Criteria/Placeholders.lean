import Worklist.Proofs.Criteria.Readable
import Worklist.Proofs.Criteria.Skeleton
import Worklist.Proofs.Tree.Depth

/-!
# Brackets and question marks of a clause

The text of a clause and its parameters are made from the same filters.  Read by tokens, every
filter stands at the depth of its group, and it has as many question marks as it has parameters, so
that the question marks of the clause and its parameters correspond to each other in order.

* `Walks` follows the depth through tokens; `Lays.walks_tokens` is the induction over the groups.
* `gathered` lists what the filters among tokens have, as `spell` writes their text; `boundBy` are
  their parameters.
* `exists_mark` finds the filter that a question mark belongs to.
* `clause_placeholders` is the result for reachable queries.
-/

namespace Worklist

open Sql

namespace Criteria

variable {c : Criteria}

/-! ## The depth of tokens -/

/-- Tokens from one depth to another, in which every atom stands at the depth of its group. -/
inductive Walks (depthOf : Nat → Nat) : Nat → List Token → Nat → Prop where
  | nil (d : Nat) : Walks depthOf d [] d
  | atom {id i e : Nat} {ts : List Token} (h : Walks depthOf (depthOf id) ts e) :
      Walks depthOf (depthOf id) (.atom id i :: ts) e
  | connective {k : Connective} {d e : Nat} {ts : List Token} (h : Walks depthOf d ts e) :
      Walks depthOf d (.connective k :: ts) e
  | opened {d e : Nat} {ts : List Token} (h : Walks depthOf (d + 1) ts e) :
      Walks depthOf d (.openBracket :: ts) e
  | closed {d e : Nat} {ts : List Token} (h : Walks depthOf d ts e) :
      Walks depthOf (d + 1) (.closeBracket :: ts) e

section Walks

variable {depthOf : Nat → Nat} {d e m : Nat} {ts us : List Token}

theorem Walks.append (h : Walks depthOf d ts m) (h' : Walks depthOf m us e) :
    Walks depthOf d (ts ++ us) e := by
  induction h with
  | nil => exact h'
  | atom _ ih => exact .atom (ih h')
  | connective _ ih => exact .connective (ih h')
  | opened _ ih => exact .opened (ih h')
  | closed _ ih => exact .closed (ih h')

theorem Walks.split (h : Walks depthOf d (ts ++ us) e) :
    ∃ m, Walks depthOf d ts m ∧ Walks depthOf m us e := by
  induction ts generalizing d with
  | nil => exact ⟨d, .nil d, h⟩
  | cons t ts ih =>
    cases h with
    | atom h =>
      obtain ⟨m, hts, hus⟩ := ih h
      exact ⟨m, .atom hts, hus⟩
    | connective h =>
      obtain ⟨m, hts, hus⟩ := ih h
      exact ⟨m, .connective hts, hus⟩
    | opened h =>
      obtain ⟨m, hts, hus⟩ := ih h
      exact ⟨m, .opened hts, hus⟩
    | closed h =>
      obtain ⟨m, hts, hus⟩ := ih h
      exact ⟨m, .closed hts, hus⟩

theorem walks_joinedTokens {tss : List (List Token)} (h : ∀ ts ∈ tss, Walks depthOf d ts d)
    (k : Connective) : Walks depthOf d (joinedTokens k tss) d := by
  cases tss with
  | nil => exact .nil d
  | cons ts tss =>
    rw [List.forall_mem_cons] at h
    obtain ⟨hts, htss⟩ := h
    refine hts.append ?_
    clear hts
    induction tss with
    | nil => exact .nil d
    | cons us tss ih =>
      rw [List.forall_mem_cons] at htss
      exact .append (.connective htss.1) (ih htss.2)

end Walks

variable {s : PredicateSet} {f : Forest}

/-- The tokens of a group stand at its depth; those of its children are in brackets. -/
theorem Lays.walks_tokens (h : c.Lays s f) (id : Nat) :
    Walks c.tree.depth (c.tree.depth id) (c.tokens id) (c.tree.depth id) := by
  have hchild : ∀ id child : Nat, child ∈ (c.tree.node id).children →
      c.tree.depth child = c.tree.depth id + 1 := by
    rw [h.tree]
    exact fun _ _ => Tree.depth_of_child s f
  induction id using h.ascending.induction with
  | step id ih =>
    rw [tokens_eq h.ascending]
    refine walks_joinedTokens ?_ _
    rw [List.forall_mem_append, List.forall_mem_map, List.forall_mem_map]
    refine ⟨fun i _ => .atom (.nil _), fun child hmem => .opened ?_⟩
    have hwalk := ih child hmem
    rw [hchild id child hmem] at hwalk
    exact hwalk.append (.closed (.nil _))

/-! ## What tokens gather -/

section Gathered

variable {α : Type} {g : Condition → List α}

/-- What a token has of its own; that of an atom is taken from the filter. -/
def ofToken (c : Criteria) (g : Condition → List α) : Token → List α
  | .atom group index => (((c.parts group)[index]?).map g).getD []
  | _ => []

/-- What tokens have of their own, in order. -/
def gathered (c : Criteria) (g : Condition → List α) (ts : List Token) : List α :=
  ts.flatMap (c.ofToken g)

theorem gathered_cons (t : Token) (ts : List Token) :
    c.gathered g (t :: ts) = c.ofToken g t ++ c.gathered g ts := List.flatMap_cons

theorem gathered_append (ts us : List Token) :
    c.gathered g (ts ++ us) = c.gathered g ts ++ c.gathered g us := List.flatMap_append

/-- Only atoms have something of their own. -/
theorem gathered_eq_atoms (ts : List Token) :
    c.gathered g ts = (atoms ts).flatMap fun a => c.ofToken g (.atom a.1 a.2) := by
  induction ts with
  | nil => rfl
  | cons t ts ih =>
    rw [gathered_cons, ih]
    cases t <;> rfl

theorem flatMap_range_getElem? {α β : Type} (as : List α) (g : α → List β) :
    ((List.range as.length).flatMap fun i => ((as[i]?).map g).getD []) = as.flatMap g := by
  have hmap : ((List.range as.length).map fun i => ((as[i]?).map g).getD []) = as.map g := by
    refine List.ext_getElem (by simp) ?_
    intro i hi _
    have hlt : i < as.length := by simpa using hi
    simp [hlt]
  rw [List.flatMap_def, hmap, List.flatMap_def]

/-- The tokens of a clause gather what its filters have, over the groups in pre-order. -/
theorem Lays.gathered_tokens (h : c.Lays s f) (g : Condition → List α) :
    c.gathered g (c.tokens Tree.root) =
      c.tree.preorder.flatMap fun id => (c.parts id).flatMap g := by
  have hown : ∀ id : NodeId, (((List.range (c.parts id).length).map (id, ·)).flatMap fun a =>
      c.ofToken g (.atom a.1 a.2)) = (c.parts id).flatMap g := by
    intro id
    rw [List.flatMap_map]
    exact flatMap_range_getElem? (c.parts id) g
  rw [gathered_eq_atoms, atoms_tokens h.ascending, List.flatMap_assoc, Tree.preorder, funext hown]

end Gathered

/-- The parameters of tokens. -/
def boundBy (c : Criteria) (ts : List Token) : List Param := c.gathered Condition.params ts

theorem Lays.boundBy_tokens (h : c.Lays s f) :
    c.boundBy (c.tokens Tree.root) = c.clause.params := by
  rw [boundBy, h.gathered_tokens, h.params_clause]

/-! ## Texts of tokens

The escape character stands in the text, so it must be neither a bracket nor a question mark. -/

section Texts

variable (hlays : c.Lays s f) (hescape : c.likeEscape ∉ ['(', ')', '?'])

include hlays hescape

theorem balanced_parts (id : Nat) : ∀ part ∈ c.parts id, part.Balanced :=
  fun part hpart => part.balanced hescape (hlays.readable_part hpart).plain

theorem rises_atom (id i : Nat) :
    Rises (c.spellToken (.atom id i)) 0 (c.ofToken Condition.params (.atom id i)).length := by
  rw [spellToken, ofToken]
  cases hpart : (c.parts id)[i]? with
  | none => exact rises_nil
  | some part => exact balanced_parts hlays hescape id part (List.mem_of_getElem? hpart)

/-- The text of tokens leads from one depth to the other. -/
theorem depthBehind_spell {depthOf : Nat → Nat} {d e : Nat} {ts : List Token}
    (h : Walks depthOf d ts e) : depthBehind d (c.spell ts) = some e := by
  induction h with
  | nil d => rfl
  | @atom id i e ts h ih =>
    rw [spell, depthBehind_append, (rises_atom hlays hescape id i).depth]
    exact ih
  | @connective k d e ts h ih =>
    rw [spell, spellToken_connective, separator, depthBehind_append,
      (isQuiet_separator k).rises.depth]
    exact ih
  | @opened d e ts h ih =>
    rw [spell, spellToken, depthBehind_append, rises_open.depth]
    exact ih
  | @closed d e ts h ih =>
    rw [spell, spellToken, depthBehind_append]
    exact ih

theorem count_spellToken (t : Token) :
    (c.spellToken t).toList.count '?' = (c.ofToken Condition.params t).length := by
  cases t with
  | atom id i => exact (rises_atom hlays hescape id i).marks
  | connective k =>
    rw [spellToken_connective]
    exact (isQuiet_separator k).rises.marks
  | openBracket =>
    rw [spellToken]
    rfl
  | closeBracket =>
    rw [spellToken]
    rfl

/-- The text of tokens has one mark for each of their parameters. -/
theorem count_spell (ts : List Token) :
    (c.spell ts).toList.count '?' = (c.boundBy ts).length := by
  induction ts with
  | nil => rfl
  | cons t ts ih =>
    rw [spell, String.toList_append, List.count_append, count_spellToken hlays hescape, ih, boundBy,
      boundBy, gathered_cons, List.length_append]

/-- A token with a mark is the atom of a filter. -/
theorem exists_of_mark_spellToken {t : Token} (h : '?' ∈ (c.spellToken t).toList) :
    ∃ id i part, t = .atom id i ∧ (c.parts id)[i]? = some part := by
  have hpos : 0 < (c.ofToken Condition.params t).length := by
    rw [← count_spellToken hlays hescape]
    exact List.count_pos_iff.2 h
  cases t with
  | atom id i =>
    cases hpart : (c.parts id)[i]? with
    | none => simp [ofToken, hpart] at hpos
    | some part => exact ⟨id, i, part, rfl, hpart⟩
  | _ => exact absurd hpos (Nat.lt_irrefl 0)

/-- Every mark belongs to a filter. -/
theorem exists_mark {ts : List Token} {j : Nat} (h : (c.spell ts).toList[j]? = some '?') :
    ∃ before id i part after m, ts = before ++ .atom id i :: after ∧
      (c.parts id)[i]? = some part ∧ j = (c.spell before).length + m ∧
        part.text.toList[m]? = some '?' := by
  induction ts generalizing j with
  | nil => cases h
  | cons t ts ih =>
    rw [spell, String.toList_append, List.getElem?_append] at h
    -- the mark is in the first token, which is an atom then, or in the others
    split at h
    · obtain ⟨id, i, part, rfl, hpart⟩ := exists_of_mark_spellToken hlays hescape
        (List.mem_of_getElem? h)
      rw [spellToken, hpart] at h
      exact ⟨[], id, i, part, ts, j, rfl, hpart, (Nat.zero_add j).symm, h⟩
    · rename_i hj
      obtain ⟨before, id, i, part, after, m, rfl, hpart, hm, hmark⟩ := ih h
      refine ⟨t :: before, id, i, part, after, m, rfl, hpart, ?_, hmark⟩
      rw [spell, String.length_append]
      rw [String.length_toList] at hj hm
      omega

end Texts

/-! ## The filters in the clause -/

/-- How a filter stands in a clause between tokens in front of it and behind it. -/
structure Placed (c : Criteria) (before : List Token) (id : NodeId) (part : Condition)
    (after : List Token) : Prop where
  text : c.clause.text = c.spell before ++ part.text ++ c.spell after
  params : c.clause.params = c.boundBy before ++ part.params ++ c.boundBy after
  /-- The filter starts at the depth of its group. -/
  depth : (c.spell before).toList.count '(' = (c.spell before).toList.count ')' + c.tree.depth id
  /-- The marks in front of the filter are those of the parameters in front of its own. -/
  marks_before : (c.spell before).toList.count '?' = (c.boundBy before).length
  nested : ∀ p, p <+: part.text.toList → p.count ')' ≤ p.count '('
  balanced : part.text.toList.count '(' = part.text.toList.count ')'
  marks : part.text.toList.count '?' = part.params.length

theorem Lays.depth_root (h : c.Lays s f) : c.tree.depth Tree.root = 0 := by
  refine Tree.depth_of_root ?_
  rw [h.node_root]

theorem Lays.text_tokens (h : c.Lays s f) : c.clause.text = c.spell (c.tokens Tree.root) := by
  rw [h.text_clause, spell_tokens h.ascending]

theorem Lays.placed (h : c.Lays s f) (hescape : c.likeEscape ∉ ['(', ')', '?'])
    {before after : List Token} {id i : Nat} {part : Condition}
    (hsplit : c.tokens Tree.root = before ++ .atom id i :: after)
    (hpart : (c.parts id)[i]? = some part) : c.Placed before id part after := by
  have hbalanced := balanced_parts h hescape id part (List.mem_of_getElem? hpart)
  obtain ⟨hnested, htotal⟩ := count_of_depthBehind (hbalanced.depth 0)
  have hwalk := h.walks_tokens Tree.root
  rw [hsplit, h.depth_root] at hwalk
  -- the walk in front of the filter ends where the one from its atom starts
  obtain ⟨m, hbefore, hatom⟩ := hwalk.split
  cases hatom with
  | atom _ =>
    obtain ⟨-, hdepth⟩ := count_of_depthBehind (depthBehind_spell h hescape hbefore)
    exact {
      text := by
        rw [h.text_tokens, hsplit, spell_append, spell, spellToken, hpart, String.append_assoc]
        rfl
      params := by
        rw [← h.boundBy_tokens, hsplit, boundBy, gathered_append, gathered_cons, ofToken, hpart,
          List.append_assoc]
        rfl
      depth := hdepth
      marks_before := count_spell h hescape before
      nested := hnested
      balanced := htotal
      marks := hbalanced.marks }

/-- The mark at a place of a filter counts within the parameters of the filter. -/
theorem Placed.mark_lt {before after : List Token} {id : NodeId} {part : Condition}
    (h : c.Placed before id part after) {m : Nat} (hmark : part.text.toList[m]? = some '?') :
    let mark := (c.clause.text.toList.take ((c.spell before).length + m)).count '?'
    (c.boundBy before).length ≤ mark ∧ mark < (c.boundBy before).length + part.params.length := by
  obtain ⟨hm, hat⟩ := List.getElem?_eq_some_iff.1 hmark
  have htake : c.clause.text.toList.take ((c.spell before).length + m) =
      (c.spell before).toList ++ part.text.toList.take m := by
    rw [h.text, String.toList_append, String.toList_append, List.append_assoc,
      ← String.length_toList, List.take_length_add_append,
      List.take_append_of_le_length (Nat.le_of_lt hm)]
  have hrest : part.text.toList =
      part.text.toList.take m ++ '?' :: part.text.toList.drop (m + 1) := by
    rw [← hat, ← List.drop_eq_getElem_cons hm, List.take_append_drop]
  have htotal := h.marks
  rw [hrest, List.count_append, List.count_cons_self] at htotal
  rw [htake, List.count_append, h.marks_before]
  omega

/-- Every atom of a clause is a filter. -/
theorem Lays.exists_part (h : c.Lays s f) {id i : Nat}
    (hmem : .atom id i ∈ c.tokens Tree.root) : ∃ part, (c.parts id)[i]? = some part := by
  have hatom : (id, i) ∈ atoms (c.tokens Tree.root) := List.mem_filterMap.2 ⟨_, hmem, rfl⟩
  rw [atoms_tokens h.ascending, List.mem_flatMap] at hatom
  obtain ⟨_, -, hatom⟩ := hatom
  obtain ⟨i', hi, hpair⟩ := List.mem_map.1 hatom
  cases hpair
  exact ⟨_, List.getElem?_eq_getElem (List.mem_range.1 hi)⟩

/-- The brackets and question marks of a clause line up with its groups and its parameters.

The escape character must not be a bracket or a question mark itself.  Then no prefix of the clause
closes more brackets than it opens, and the clause closes all of them.  Every filter starts at the
depth of its group, is balanced in itself, and has as many question marks as it has parameters.  The
question mark that comes after `n` others belongs to the filter that the parameter behind `n` others
belongs to, and there are as many question marks as parameters. -/
theorem clause_placeholders {q : Query} (hq : q.Reachable) {identity : IdentityResolver}
    {config : Config} (hc : q.compile identity config = .ok c)
    (hescape : config.likeEscape ∉ ['(', ')', '?']) :
    ((∀ p, p <+: c.clause.text.toList → p.count ')' ≤ p.count '(') ∧
      c.clause.text.toList.count '(' = c.clause.text.toList.count ')' ∧
      c.clause.text.toList.count '?' = c.clause.params.length) ∧
    atoms (c.tokens Tree.root) = ((List.range c.tree.size).flatMap fun id =>
      (List.range (c.parts id).length).map (id, ·)) ∧
    (∀ before id i after, c.tokens Tree.root = before ++ .atom id i :: after →
      ∃ part, (c.parts id)[i]? = some part ∧ c.Placed before id part after) ∧
    ∀ j, c.clause.text.toList[j]? = some '?' →
      let mark := (c.clause.text.toList.take j).count '?'
      ∃ before id i part after, c.tokens Tree.root = before ++ .atom id i :: after ∧
        (c.parts id)[i]? = some part ∧
          ((c.spell before).length ≤ j ∧ j < (c.spell before).length + part.text.length) ∧
          (c.boundBy before).length ≤ mark ∧
            mark < (c.boundBy before).length + part.params.length := by
  obtain ⟨s, f, h⟩ := hq.lays hc
  obtain ⟨-, -, -, hchar⟩ := Query.compile_eq_ok hc
  rw [← hchar] at hescape
  have hatoms : atoms (c.tokens Tree.root) = ((List.range c.tree.size).flatMap fun id =>
      (List.range (c.parts id).length).map (id, ·)) := by
    rw [atoms_tokens h.ascending, ← h.preorder, Tree.preorder]
  have hwalk := h.walks_tokens Tree.root
  rw [h.depth_root] at hwalk
  obtain ⟨hnested, htotal⟩ := count_of_depthBehind (depthBehind_spell h hescape hwalk)
  rw [← h.text_tokens] at hnested htotal
  refine ⟨⟨hnested, htotal, ?_⟩, hatoms, ?_, ?_⟩
  · rw [h.text_tokens, count_spell h hescape, h.boundBy_tokens]
  · intro before id i after hsplit
    have hmem : .atom id i ∈ c.tokens Tree.root := by
      rw [hsplit]
      exact List.mem_append_right before List.mem_cons_self
    obtain ⟨part, hpart⟩ := h.exists_part hmem
    exact ⟨part, hpart, h.placed hescape hsplit hpart⟩
  · intro j hj
    rw [h.text_tokens] at hj
    obtain ⟨before, id, i, part, after, m, hsplit, hpart, rfl, hmark⟩ := exists_mark h hescape hj
    obtain ⟨hm, -⟩ := List.getElem?_eq_some_iff.1 hmark
    have hlt := (h.placed hescape hsplit hpart).mark_lt hmark
    rw [String.length_toList] at hm
    exact ⟨before, id, i, part, after, hsplit, hpart, ⟨by omega, by omega⟩, hlt⟩

/-- A candidate user with a group beside a group with a set, an expression and a pattern. -/
theorem clause_placeholders_built :
    ∃ (q : Query) (c : Criteria), q.Reachable ∧ '\\' ∉ ['(', ')', '?'] ∧
      q.compile (fun _ => ["staff"]) {} = .ok c ∧
        c.clause.text.toList.count '(' = c.clause.text.toList.count ')' ∧
          c.clause.text.toList.count '?' = c.clause.params.length ∧ c.clause.params.length = 6 := by
  let q := Query.built [.setTerm .candidateUser (.text "ada") rfl, .openGroup .or,
    .setTerm .taskIdIn (.textSet ["a", "b"]) rfl, .setExpression .owner "boss" rfl,
    .setTerm .nameLike (.text "check%") rfl, .closeGroup .or]
  have hescape : '\\' ∉ ['(', ')', '?'] := by decide
  have hlength : (q.compile (fun _ => ["staff"]) {}).toOption.map (·.clause.params.length) =
      some 6 := by decide +kernel
  have hq : q.Reachable := Query.reachable_built _
  cases hc : q.compile (fun _ => ["staff"]) {} with
  | error e =>
    rw [hc] at hlength
    cases hlength
  | ok c =>
    rw [hc] at hlength
    obtain ⟨⟨-, htotal, hmarks⟩, -⟩ := clause_placeholders hq hc hescape
    exact ⟨q, c, hq, hescape, hc, htotal, hmarks, Option.some.inj hlength⟩

end Criteria

end Worklist
