import Worklist.Proofs.Sql.Marks

/-!
# Literals

A literal of SQL stands between single quotes, and two quotes in a row within it stand for one.
Whether a text ends within a literal depends on the number of its quotes only.

* `quotingBehind` reads a text character by character, and `endsOutside_iff` counts.
* `Paired` counts the quotes of a piece of a text that are not part of a pair.
* `Condition.paired` is the result for conditions: the quotes around literals and escape characters
  come in pairs, so that the escape characters that are quotes themselves are left over.
-/

namespace Worklist.Sql

/-! ## Reading quotes -/

/-- Where a reader of a text is.  A quote within a literal ends it unless another one follows. -/
inductive Quoting where
  | outside
  | inside
  | behindQuote
  deriving DecidableEq

/-- Reads a character. -/
def readQuote : Quoting → Char → Quoting
  | .outside, ch => if ch = '\'' then .inside else .outside
  | .inside, ch => if ch = '\'' then .behindQuote else .inside
  | .behindQuote, ch => if ch = '\'' then .inside else .outside

/-- Where a reader is behind a text. -/
def quotingBehind (s : String) : Quoting := s.toList.foldl readQuote .outside

/-- Every literal of a text is terminated. -/
def EndsOutside (s : String) : Prop := quotingBehind s ≠ .inside

instance (s : String) : Decidable (EndsOutside s) :=
  inferInstanceAs (Decidable (quotingBehind s ≠ .inside))

/-- Every quote enters a literal or leaves it, also those of a doubled quote. -/
theorem foldl_readQuote_eq_inside (cs : List Char) (quoting : Quoting) :
    cs.foldl readQuote quoting = .inside ↔
      (cs.count '\'' + if quoting = .inside then 1 else 0) % 2 = 1 := by
  induction cs generalizing quoting with
  | nil => cases quoting <;> simp
  | cons ch cs ih =>
    rw [List.foldl_cons, ih, List.count_cons]
    by_cases hch : ch = '\''
    · subst hch
      cases quoting <;> simp [readQuote]
      omega
    · cases quoting <;> simp [readQuote, hch]

theorem endsOutside_iff {s : String} : EndsOutside s ↔ s.toList.count '\'' % 2 = 0 := by
  rw [EndsOutside, quotingBehind, ne_eq, foldl_readQuote_eq_inside]
  simp only [reduceCtorEq, if_false]
  omega

/-! ## Pairs of quotes -/

/-- A text whose quotes are pairs and `others` more. -/
def Paired (s : String) (others : Nat) : Prop := ∃ pairs, s.toList.count '\'' = 2 * pairs + others

theorem Paired.append {s t : String} {m n : Nat} (h : Paired s m) (h' : Paired t n) :
    Paired (s ++ t) (m + n) := by
  obtain ⟨pairs, h⟩ := h
  obtain ⟨more, h'⟩ := h'
  refine ⟨pairs + more, ?_⟩
  rw [String.toList_append, List.count_append, h, h']
  omega

theorem paired_of_not_mem {s : String} (h : '\'' ∉ s.toList) : Paired s 0 :=
  ⟨0, List.count_eq_zero.2 h⟩

theorem paired_nil : Paired "" 0 := paired_of_not_mem (by decide)

theorem IsQuiet.paired {s : String} (h : IsQuiet s) : Paired s 0 := paired_of_not_mem h.2.2.2

theorem Paired.quiet {s t : String} {others : Nat} (h : Paired s others) (ht : IsQuiet t) :
    Paired (s ++ t) others := h.append ht.paired

theorem paired_open : Paired "(" 0 := paired_of_not_mem (by decide)

theorem paired_close : Paired ")" 0 := paired_of_not_mem (by decide)

theorem paired_quote : Paired "'" 1 := ⟨0, rfl⟩

/-- Two more quotes are one more pair. -/
theorem Paired.pair {s : String} {others : Nat} (h : Paired s (others + 2)) : Paired s others := by
  obtain ⟨pairs, h⟩ := h
  exact ⟨pairs + 1, by omega⟩

section Joined

variable {α : Type} {text : α → String} {separator : String}

/-- Texts that are joined leave the quotes of all of them over. -/
theorem paired_joined {items : α → List Char} (hseparator : Paired separator 0) {as : List α}
    (h : ∀ a ∈ as, Paired (text a) ((items a).count '\'')) :
    Paired (joined separator (as.map text)) ((as.flatMap items).count '\'') := by
  refine joined_of_append (P := fun s chs => Paired s (chs.count '\'')) paired_nil ?_ hseparator h
  intro s t xs ys hs ht
  rw [List.count_append]
  exact hs.append ht

theorem paired_joined_zero (hseparator : Paired separator 0) {as : List α}
    (h : ∀ a ∈ as, Paired (text a) 0) : Paired (joined separator (as.map text)) 0 := by
  have hall : Paired (joined separator (as.map text)) ((as.flatMap fun _ => []).count '\'') :=
    paired_joined hseparator h
  rwa [List.flatMap_eq_nil_iff.2 fun _ _ => rfl] at hall

end Joined

/-! ## Conditions -/

theorem Expr.paired {e : Expr} (h : e.Plain) : Paired e.text 0 := by
  induction e with
  | column name => exact IsQuiet.paired h
  | literal s => exact ((paired_quote.append (IsQuiet.paired h)).append paired_quote).pair
  | marks params =>
    have hmark : Paired "?" 0 := paired_of_not_mem (by decide)
    have hmarks : Paired (joined ", " (params.map fun _ => "?")) 0 :=
      paired_joined_zero isQuiet_comma.paired fun _ _ => hmark
    rwa [List.map_const'] at hmarks
  | upper e ih =>
    have hname : Paired "UPPER(" 0 := paired_of_not_mem (by decide)
    exact (hname.append (ih h)).append paired_close
  | coalesce first second ihf ihs =>
    have hname : Paired "COALESCE(" 0 := paired_of_not_mem (by decide)
    have hboth := ((hname.append (ihf h.1)).quiet isQuiet_comma).append (ihs h.2)
    exact hboth.append paired_close

theorem paired_options {options : List Expr} (h : ∀ o ∈ options, o.Plain) :
    Paired (joined ", " (options.map Expr.text)) 0 :=
  paired_joined_zero isQuiet_comma.paired fun o ho => Expr.paired (h o ho)

mutual

/-- The escape characters that a condition writes, one for each of its patterns. -/
def Condition.escapes : Condition → List Char
  | .compare _ _ _ => []
  | .like _ _ _ escape => [escape]
  | .isIn _ _ _ => []
  | .isNull _ _ => []
  | .anyRow _ _ conditions => escapesOfAll conditions
  | .bracket _ conditions => escapesOfAll conditions
  | .never => []

/-- The escape characters of conditions in order. -/
def escapesOfAll : List Condition → List Char
  | [] => []
  | c :: cs => c.escapes ++ escapesOfAll cs

end

theorem escapesOfAll_eq_flatMap (conditions : List Condition) :
    escapesOfAll conditions = conditions.flatMap Condition.escapes := by
  induction conditions with
  | nil => rfl
  | cons c conditions ih => rw [escapesOfAll, ih, List.flatMap_cons]

theorem paired_texts {separator : String} (hseparator : Paired separator 0)
    {conditions : List Condition}
    (h : ∀ c ∈ conditions, Paired c.text (c.escapes.count '\'')) :
    Paired (joined separator (texts conditions)) ((escapesOfAll conditions).count '\'') := by
  rw [texts_eq_map, escapesOfAll_eq_flatMap]
  exact paired_joined hseparator h

mutual

/-- The quotes of a plain condition are pairs, but for escape characters that are quotes. -/
theorem Condition.paired {escape : Char} : ∀ (c : Condition), c.Plain escape →
    Paired c.text (c.escapes.count '\'')
  | .compare left relation right, h => by
    have hleft := (left.paired h.1).quiet isQuiet_space
    exact ((hleft.quiet (isQuiet_relation relation)).quiet isQuiet_space).append (right.paired h.2)
  | .like isNegated left right ch, h => by
    have hword : Paired " ESCAPE '" 1 := ⟨0, rfl⟩
    have hchar : Paired ch.toString ([ch].count '\'') := ⟨0, by simp⟩
    have hnot := ((left.paired h.1).quiet isQuiet_space).quiet (isQuiet_not isNegated)
    have hlike := (hnot.quiet (t := "LIKE ") (by decide)).append (right.paired h.2.1)
    have hall := ((hlike.append hword).append hchar).append paired_quote
    -- the quotes around the escape character are a pair
    refine Paired.pair ?_
    rwa [Nat.add_right_comm, Nat.add_comm] at hall
  | .isIn isNegated left options, h => by
    have hin : Paired "IN (" 0 := paired_of_not_mem (by decide)
    have hnot := ((left.paired h.1).quiet isQuiet_space).quiet (isQuiet_not isNegated)
    exact ((hnot.append hin).append (paired_options h.2)).append paired_close
  | .isNull isNegated e, h => by
    have his := (e.paired h).quiet (t := " IS ") (by decide)
    exact (his.quiet (isQuiet_not isNegated)).quiet (by decide)
  | .anyRow isNegated source conditions, h => by
    have hexists : Paired "EXISTS (SELECT 1 FROM " 0 := paired_of_not_mem (by decide)
    have hrows := paired_texts (isQuiet_separator .and).paired (paired_all conditions h)
    have hfrom := ((isQuiet_not isNegated).paired.append hexists).quiet (isQuiet_source source)
    have hall := ((hfrom.quiet (t := " WHERE ") (by decide)).append hrows).append paired_close
    rwa [Nat.zero_add] at hall
  | .bracket connective conditions, h => by
    have hrows := paired_texts (isQuiet_separator connective).paired (paired_all conditions h)
    have hall := (paired_open.append hrows).append paired_close
    rwa [Nat.zero_add] at hall
  | .never, _ => paired_of_not_mem (by decide)

theorem paired_all {escape : Char} : ∀ (cs : List Condition), AllPlain escape cs →
    ∀ c ∈ cs, Paired c.text (c.escapes.count '\'')
  | [], _ => by simp
  | c :: cs, h => List.forall_mem_cons.2 ⟨c.paired h.1, paired_all cs h.2⟩

end

end Worklist.Sql
