import Worklist.Proofs.Like.Cache
import Worklist.Proofs.Like.Matching
import Worklist.Proofs.Like.Regex

/-!
# Matching by expressions

The expression for a pattern says what the pattern does, so a library of regular expressions that
can be relied on gives the same answers as matching by items.

* `expression_eq`: the text that is made of a pattern is the text of its items as elements between
  two anchors.
* `runs_elements`: these elements match a rest of a value exactly if the items cut it into pieces.
* `accepts_pattern_language` puts both together with the marks of `likeMatches_iff`.
-/

namespace Worklist.Like

variable {ε : Type} {engine : Engine ε} {escape : Char} {cs : List Char}

/-! ## Texts -/

/-- What an item is in an expression. -/
def Item.element : Item → Regex.Element
  | .literal c => .one (.char c)
  | .one => .one .dot
  | .many => .many .dot

/-- The expression that items are meant to become. -/
def anchored (ignoreCase : Bool) (is : List Item) : Regex where
  ignoreCase := ignoreCase
  dotAll := true
  elements := .start :: (is.map Item.element ++ [.stop])

theorem rowText_append (quote : Char → String) (es fs : List Regex.Element) :
    Regex.rowText quote (es ++ fs) = Regex.rowText quote es ++ Regex.rowText quote fs := by
  induction es with
  | nil => exact String.empty_append.symm
  | cons e es ih => rw [List.cons_append, Regex.rowText, Regex.rowText, ih, String.append_assoc]

/-- What is not the escape character has a part of its own. -/
theorem body_of_ne {c : Char} (h : c ≠ escape) : engine.body escape (c :: cs) =
    (if c = '%' then ".*" else if c = '_' then "." else engine.quote c) ++
      engine.body escape cs := by
  cases cs <;> simp only [Engine.body, if_neg h] <;> split_ifs <;> rfl

theorem body_eq (engine : Engine ε) (escape : Char) (cs : List Char) :
    engine.body escape cs =
      Regex.rowText engine.quote ((items escape cs).map Item.element) := by
  induction cs using items.induct escape with
  | case1 => rfl
  | case2 =>
    rw [Engine.body, if_pos rfl, items, if_pos rfl]
    exact String.append_empty.symm
  | case3 c cs ih =>
    rw [Engine.body, if_pos rfl, items, if_pos rfl, ih]
    rfl
  | case4 cs hescape ih =>
    rw [body_of_ne hescape, if_pos rfl, items_of_ne hescape, if_pos rfl, ih]
    rfl
  | case5 cs hescape hmany ih =>
    rw [body_of_ne hescape, if_neg hmany, if_pos rfl, items_of_ne hescape, if_neg hmany,
      if_pos rfl, ih]
    rfl
  | case6 c cs hescape hmany hone ih =>
    rw [body_of_ne hescape, if_neg hmany, if_neg hone, items_of_ne hescape, if_neg hmany,
      if_neg hone, ih]
    rfl

/-- The expression for a pattern is the text of its items between two anchors. -/
theorem expression_eq (engine : Engine ε) (ignoreCase : Bool) (escape : Char) (pattern : String) :
    engine.expression ignoreCase escape pattern =
      (anchored ignoreCase (items escape pattern.toList)).text engine.quote := by
  have hstart : (if ignoreCase then "(?is)^" else "(?s)^") =
      Regex.switchText ignoreCase true ++ "^" := by
    cases ignoreCase <;> decide
  rw [Engine.expression, body_eq, hstart, Regex.text, anchored, Regex.rowText, rowText_append,
    String.append_assoc, String.append_assoc]
  rfl

/-! ## Searches -/

theorem takes_char_iff {r : Regex} {c p : Char} :
    r.takes (.char p) c = true ↔ Alike r.ignoreCase c p := by
  rw [Regex.takes, Alike]
  split <;> exact beq_iff_eq

/-- Elements between anchors match the rest of a value exactly if it can be cut into pieces that
the items take. -/
theorem runs_elements {r : Regex} (hdot : r.dotAll = true) (is : List Item) (atStart : Bool)
    (cs : List Char) :
    r.runs (is.map Item.element ++ [.stop]) atStart cs = true ↔ Splits r.ignoreCase is cs := by
  induction is generalizing atStart cs with
  | nil =>
    rw [List.map_nil, List.nil_append, Regex.runs, Regex.runs, Bool.and_true, List.isEmpty_iff,
      splits_nil]
  | cons item is ih =>
    rw [List.map_cons, List.cons_append, splits_cons]
    cases item with
    | literal p =>
      rw [Item.element, Regex.runs_one_iff]
      simp only [takes_char_iff, ih]
      exact exists_piece_iff fun _ => Iff.rfl
    | one =>
      rw [Item.element, Regex.runs_one_iff]
      simp only [Regex.takes, hdot, Bool.true_or, ih]
      exact exists_piece_iff (by simp [Item.Takes])
    | many =>
      rw [Item.element, Regex.runs, Regex.afterRun_iff]
      simp [Regex.takes, hdot, ih, Item.Takes]

theorem finds_anchored {ignoreCase : Bool} {is : List Item} {value : String} :
    (anchored ignoreCase is).finds value = true ↔ Splits ignoreCase is value.toList := by
  rw [Regex.finds_start rfl, runs_elements rfl]
  exact Iff.rfl

/-! ## Answers -/

/-- LIKE accepts exactly its pattern language.

By way of the expression, with every library that decides such expressions, there is always an
answer, and it is that the value matches exactly if it can be cut into pieces, one for each item
that the pattern is read into, such that every item takes its piece.  Matching by items, with a
store of patterns or without one, gives the same answer. -/
theorem accepts_pattern_language (engine : Engine ε) (h : engine.Decides) (value pattern : String)
    (escape : Char) (ignoreCase : Bool) :
    (engine.likeMatches value pattern escape ignoreCase = .ok true ↔
      ∃ is, Reads escape pattern.toList is ∧ Splits ignoreCase is value.toList) ∧
    engine.likeMatches value pattern escape ignoreCase =
      .ok (likeMatches value pattern escape ignoreCase) ∧
    ∀ cache : Cache, Cache.Sound Pattern.read cache →
      ((cache.likeMatches value pattern escape ignoreCase).1 = true ↔
        ∃ is, Reads escape pattern.toList is ∧ Splits ignoreCase is value.toList) := by
  have hreads : (∃ is, Reads escape pattern.toList is ∧ Splits ignoreCase is value.toList) ↔
      likeMatches value pattern escape ignoreCase = true := by
    simp only [reads_iff, exists_eq_left, likeMatches_iff]
  have hengine : engine.likeMatches value pattern escape ignoreCase =
      .ok (likeMatches value pattern escape ignoreCase) := by
    obtain ⟨test, hcompile, htest⟩ := h (anchored ignoreCase (items escape pattern.toList))
    have hanswer : test value = likeMatches value pattern escape ignoreCase := by
      rw [htest, Bool.eq_iff_iff, finds_anchored, likeMatches_iff]
    rw [Engine.likeMatches, expression_eq, hcompile, ← hanswer]
    rfl
  refine ⟨?_, hengine, fun cache hsound => ?_⟩
  · rw [hengine, Except.ok.injEq, hreads]
  · rw [(hsound.likeMatches value pattern escape ignoreCase).1, hreads]

/-- A literal in the other case, a line break for `%`, and an escaped `_`. -/
theorem accepts_pattern_language_escaped :
    plainEngine.likeMatches "K\n_" "k%\\_" '\\' true = .ok true ∧
      (Cache.empty.likeMatches "K\n_" "k%\\_" '\\' true).1 = true := by
  have hreads : Reads '\\' "k%\\_".toList [.literal 'k', .many, .literal '_'] :=
    .literal (by decide) (by decide) (by decide) (.many (by decide) (.escaped .done))
  have halike : Text.fold 'K' = Text.fold 'k' := by decide
  have hsplits : Splits true [.literal 'k', .many, .literal '_'] "K\n_".toList :=
    ⟨[['K'], ['\n'], ['_']], rfl,
      .cons ⟨'K', rfl, halike⟩ (.cons trivial (.cons ⟨'_', rfl, rfl⟩ .nil))⟩
  obtain ⟨hengine, -, hcache⟩ :=
    accepts_pattern_language plainEngine plainEngine_decides "K\n_" "k%\\_" '\\' true
  exact ⟨hengine.2 ⟨_, hreads, hsplits⟩,
    (hcache .empty (Cache.sound_empty _)).2 ⟨_, hreads, hsplits⟩⟩

end Worklist.Like
