import Worklist.Proofs.Criteria.Nesting

/-!
# Brackets and marks

The text of a condition opens and closes its brackets in order and has one question mark for each
of its parameters, as long as the names and literals in it are quiet: without brackets, question
marks and quotes of their own.

* `depthBehind` reads the brackets of a text.  `count_of_depthBehind` says in numbers of brackets
  what it means that the reading succeeds.
* `Rises` is what a piece of a text does: how many brackets it leaves open and how many marks it
  has.  It is followed through joined texts.
* `Condition.balanced` is the result for conditions, by induction on the condition.
-/

namespace Worklist.Sql

/-! ## Depths -/

/-- Reads a character within brackets of some depth.  A bracket that closes nothing is refused. -/
def readBracket (depth : Nat) (ch : Char) : Option Nat :=
  if ch = '(' then some (depth + 1)
  else if ch = ')' then if depth = 0 then none else some (depth - 1)
  else some depth

/-- The depth behind a text. -/
def depthBehind (depth : Nat) (s : String) : Option Nat := s.toList.foldlM readBracket depth

theorem depthBehind_append (depth : Nat) (s t : String) :
    depthBehind depth (s ++ t) = (depthBehind depth s).bind (depthBehind · t) := by
  rw [depthBehind, String.toList_append, List.foldlM_append]
  rfl

/-- What the reading says about the numbers of brackets. -/
theorem count_of_foldlM {cs : List Char} {depth behind : Nat}
    (h : cs.foldlM readBracket depth = some behind) :
    (∀ p, p <+: cs → p.count ')' ≤ p.count '(' + depth) ∧
      cs.count '(' + depth = cs.count ')' + behind := by
  induction cs generalizing depth with
  | nil =>
    cases h
    exact ⟨fun p hp => by simp [List.prefix_nil.1 hp], by simp⟩
  | cons ch cs ih =>
    rw [List.foldlM_cons] at h
    obtain ⟨next, hnext, hrest⟩ := Option.bind_eq_some_iff.1 h
    obtain ⟨hfront, htotal⟩ := ih hrest
    -- one character changes the depth by what it counts
    have hstep : [ch].count '(' + depth = [ch].count ')' + next := by
      unfold readBracket at hnext
      split at hnext
      · cases hnext
        subst ch
        simp [Nat.add_comm]
      · split at hnext
        · split at hnext
          · cases hnext
          · cases hnext
            subst ch
            simp
            omega
        · cases hnext
          rename_i hopen hclose
          simp [hopen, hclose]
    refine ⟨fun p hp => ?_, ?_⟩
    · rcases List.prefix_cons_iff.1 hp with rfl | ⟨p, rfl, hp'⟩
      · simp
      · have hbehind := hfront p hp'
        rw [← List.singleton_append, List.count_append, List.count_append]
        omega
    · rw [← List.singleton_append, List.count_append, List.count_append]
      omega

theorem count_of_depthBehind {s : String} {depth behind : Nat}
    (h : depthBehind depth s = some behind) :
    (∀ p, p <+: s.toList → p.count ')' ≤ p.count '(' + depth) ∧
      s.toList.count '(' + depth = s.toList.count ')' + behind :=
  count_of_foldlM h

/-! ## Pieces of a text -/

/-- A piece of a text that leaves `opened` brackets open and has `marks` question marks. -/
structure Rises (s : String) (opened marks : Nat) : Prop where
  depth : ∀ depth, depthBehind depth s = some (depth + opened)
  marks : s.toList.count '?' = marks

theorem rises_nil : Rises "" 0 0 := ⟨fun _ => rfl, rfl⟩

theorem rises_mark : Rises "?" 0 1 := ⟨fun _ => rfl, rfl⟩

theorem rises_open : Rises "(" 1 0 := ⟨fun _ => rfl, rfl⟩

theorem Rises.append {s t : String} {opened more marks others : Nat} (h : Rises s opened marks)
    (h' : Rises t more others) : Rises (s ++ t) (opened + more) (marks + others) := by
  refine ⟨fun depth => ?_, ?_⟩
  · rw [depthBehind_append, h.depth, Option.bind_some, h'.depth, Nat.add_assoc]
  · rw [String.toList_append, List.count_append, h.marks, h'.marks]

/-- A closing bracket. -/
theorem Rises.close {s : String} {opened marks : Nat} (h : Rises s (opened + 1) marks) :
    Rises (s ++ ")") opened marks := by
  refine ⟨fun depth => ?_, ?_⟩
  · rw [depthBehind_append, h.depth, Option.bind_some]
    rfl
  · rw [String.toList_append, List.count_append, h.marks]
    rfl

/-- A text without brackets and marks. -/
theorem rises_of_not_mem {s : String}
    (h : '(' ∉ s.toList ∧ ')' ∉ s.toList ∧ '?' ∉ s.toList) : Rises s 0 0 := by
  obtain ⟨hopen, hclose, hmark⟩ := h
  refine ⟨fun depth => ?_, List.count_eq_zero.2 hmark⟩
  rw [depthBehind]
  generalize s.toList = cs at hopen hclose
  induction cs with
  | nil => rfl
  | cons ch cs ih =>
    rw [List.mem_cons, not_or] at hopen hclose
    have hnext : readBracket depth ch = some depth := by
      rw [readBracket, if_neg (Ne.symm hopen.1), if_neg (Ne.symm hclose.1)]
    rw [List.foldlM_cons, hnext]
    exact ih hopen.2 hclose.2

section Joined

variable {α β : Type} {P : String → List β → Prop} {text : α → String} {items : α → List β}
  {separator : String}

theorem followed_of_append (nil : P "" [])
    (append : ∀ {s t : String} {xs ys : List β}, P s xs → P t ys → P (s ++ t) (xs ++ ys))
    (hseparator : P separator []) {as : List α} (h : ∀ a ∈ as, P (text a) (items a))
    (begun : Bool) : P (followed separator begun (as.map text)) (as.flatMap items) := by
  induction as generalizing begun with
  | nil => exact nil
  | cons a as ih =>
    rw [List.forall_mem_cons] at h
    have hlead : P (if begun then separator else "") [] := by
      cases begun
      · exact nil
      · exact hseparator
    exact append (append hlead h.1) (ih h.2 true)

/-- What texts have one behind the other they have as joined texts. -/
theorem joined_of_append (nil : P "" [])
    (append : ∀ {s t : String} {xs ys : List β}, P s xs → P t ys → P (s ++ t) (xs ++ ys))
    (hseparator : P separator []) {as : List α} (h : ∀ a ∈ as, P (text a) (items a)) :
    P (joined separator (as.map text)) (as.flatMap items) := by
  cases as with
  | nil => exact nil
  | cons a as =>
    rw [List.forall_mem_cons] at h
    rw [List.map_cons, joined_cons, List.flatMap_cons]
    exact append h.1 (followed_of_append nil append hseparator h.2 true)

/-- Texts that are joined have the marks of all of them. -/
theorem rises_joined (hseparator : Rises separator 0 0) {as : List α}
    (h : ∀ a ∈ as, Rises (text a) 0 (items a).length) :
    Rises (joined separator (as.map text)) 0 (as.flatMap items).length := by
  refine joined_of_append (P := fun s xs => Rises s 0 xs.length) rises_nil ?_ hseparator h
  intro s t xs ys hs ht
  rw [List.length_append]
  exact hs.append ht

end Joined

/-! ## Quiet texts -/

/-- A text without brackets, question marks and quotes. -/
def IsQuiet (s : String) : Prop :=
  '(' ∉ s.toList ∧ ')' ∉ s.toList ∧ '?' ∉ s.toList ∧ '\'' ∉ s.toList

instance (s : String) : Decidable (IsQuiet s) := inferInstanceAs (Decidable (_ ∧ _))

theorem IsQuiet.rises {s : String} (h : IsQuiet s) : Rises s 0 0 :=
  rises_of_not_mem ⟨h.1, h.2.1, h.2.2.1⟩

/-- A quiet text behind another one changes nothing. -/
theorem Rises.quiet {s t : String} {opened marks : Nat} (h : Rises s opened marks)
    (ht : IsQuiet t) : Rises (s ++ t) opened marks := h.append ht.rises

/-! ## Words between the names -/

theorem isQuiet_comma : IsQuiet ", " := by decide

theorem isQuiet_space : IsQuiet " " := by decide

theorem isQuiet_separator (connective : Connective) : IsQuiet (" " ++ connective.sql ++ " ") := by
  cases connective <;> decide

theorem isQuiet_relation (relation : Relation) : IsQuiet relation.text := by
  cases relation <;> decide

theorem isQuiet_not (isNegated : Bool) : IsQuiet (notText isNegated) := by
  cases isNegated <;> decide

theorem isQuiet_source (source : Source) : IsQuiet source.text := by
  cases source <;> decide

/-! ## Plain conditions -/

/-- The names and literals of a scalar are quiet. -/
def Expr.Plain : Expr → Prop
  | column name => IsQuiet name
  | literal s => IsQuiet s
  | marks _ => True
  | upper e => e.Plain
  | coalesce first second => first.Plain ∧ second.Plain

mutual

/-- The names and literals of a condition are quiet, and all its patterns have one escape
character. -/
def Condition.Plain (escape : Char) : Condition → Prop
  | .compare left _ right => left.Plain ∧ right.Plain
  | .like _ left right ch => left.Plain ∧ right.Plain ∧ ch = escape
  | .isIn _ left options => left.Plain ∧ ∀ o ∈ options, o.Plain
  | .isNull _ e => e.Plain
  | .anyRow _ _ conditions => AllPlain escape conditions
  | .bracket _ conditions => AllPlain escape conditions
  | .never => True

/-- All conditions of a list are plain. -/
def AllPlain (escape : Char) : List Condition → Prop
  | [] => True
  | c :: cs => c.Plain escape ∧ AllPlain escape cs

end

theorem allPlain_iff {escape : Char} {conditions : List Condition} :
    AllPlain escape conditions ↔ ∀ c ∈ conditions, c.Plain escape := by
  induction conditions with
  | nil => simp [AllPlain]
  | cons c conditions ih => rw [AllPlain, ih, List.forall_mem_cons]

/-! ## The text of conditions -/

theorem Expr.rises {e : Expr} (h : e.Plain) : Rises e.text 0 e.params.length := by
  induction e with
  | column name => exact IsQuiet.rises h
  | literal s =>
    have hquote : Rises "'" 0 0 := rises_of_not_mem (by decide)
    exact (hquote.append (IsQuiet.rises h)).append hquote
  | marks params =>
    have hmarks : Rises (joined ", " (params.map fun _ => "?")) 0
        (params.flatMap fun p => [p]).length :=
      rises_joined isQuiet_comma.rises fun _ _ => rises_mark
    rwa [List.map_const', List.flatMap_singleton'] at hmarks
  | upper e ih =>
    have hname : Rises "UPPER(" 1 0 := ⟨fun _ => rfl, rfl⟩
    have hall := (hname.append (ih h)).close
    rwa [Nat.zero_add] at hall
  | coalesce first second ihf ihs =>
    have hname : Rises "COALESCE(" 1 0 := ⟨fun _ => rfl, rfl⟩
    have hall := (((hname.append (ihf h.1)).quiet isQuiet_comma).append (ihs h.2)).close
    rw [Nat.zero_add] at hall
    rwa [Expr.params, List.length_append]

/-- The brackets of a condition are balanced, and it has one mark for each parameter. -/
def Condition.Balanced (c : Condition) : Prop := Rises c.text 0 c.params.length

theorem rises_options {options : List Expr} (h : ∀ o ∈ options, o.Plain) :
    Rises (joined ", " (options.map Expr.text)) 0 (options.flatMap Expr.params).length :=
  rises_joined isQuiet_comma.rises fun o ho => o.rises (h o ho)

theorem rises_texts {separator : String} (hseparator : Rises separator 0 0)
    {conditions : List Condition} (h : ∀ c ∈ conditions, c.Balanced) :
    Rises (joined separator (texts conditions)) 0 (paramsOfAll conditions).length := by
  rw [texts_eq_map, paramsOfAll_eq_flatMap]
  exact rises_joined hseparator h

mutual

/-- A plain condition is balanced unless its escape character is a bracket or a question mark. -/
theorem Condition.balanced {escape : Char} (hescape : escape ∉ ['(', ')', '?']) :
    ∀ (c : Condition), c.Plain escape → c.Balanced
  | .compare left relation right, h => by
    have hleft := (left.rises h.1).quiet isQuiet_space
    rw [Condition.Balanced, Condition.params, List.length_append]
    exact ((hleft.quiet (isQuiet_relation relation)).quiet isQuiet_space).append (right.rises h.2)
  | .like isNegated left right ch, h => by
    obtain ⟨hleft, hright, rfl⟩ := h
    have hword : Rises " ESCAPE '" 0 0 := rises_of_not_mem (by decide)
    have hquote : Rises "'" 0 0 := rises_of_not_mem (by decide)
    have hchar : Rises ch.toString 0 0 := rises_of_not_mem (by simpa [eq_comm] using hescape)
    have hnot := ((left.rises hleft).quiet isQuiet_space).quiet (isQuiet_not isNegated)
    have hlike := (hnot.quiet (t := "LIKE ") (by decide)).append (right.rises hright)
    rw [Condition.Balanced, Condition.params, List.length_append]
    exact ((hlike.append hword).append hchar).append hquote
  | .isIn isNegated left options, h => by
    have hin : Rises "IN (" 1 0 := ⟨fun _ => rfl, rfl⟩
    have hnot := ((left.rises h.1).quiet isQuiet_space).quiet (isQuiet_not isNegated)
    rw [Condition.Balanced, Condition.params, List.length_append]
    exact ((hnot.append hin).append (rises_options h.2)).close
  | .isNull isNegated e, h => by
    have his := (e.rises h).quiet (t := " IS ") (by decide)
    exact (his.quiet (isQuiet_not isNegated)).quiet (by decide)
  | .anyRow isNegated source conditions, h => by
    have hexists : Rises "EXISTS (SELECT 1 FROM " 1 0 := ⟨fun _ => rfl, rfl⟩
    have hrows := rises_texts (isQuiet_separator .and).rises (balanced_all hescape conditions h)
    have hfrom := ((isQuiet_not isNegated).rises.append hexists).quiet (isQuiet_source source)
    have hall := ((hfrom.quiet (t := " WHERE ") (by decide)).append hrows).close
    rwa [Nat.zero_add] at hall
  | .bracket connective conditions, h => by
    have hseparator := (isQuiet_separator connective).rises
    have hrows := rises_texts hseparator (balanced_all hescape conditions h)
    have hall := (rises_open.append hrows).close
    rwa [Nat.zero_add] at hall
  | .never, _ => rises_of_not_mem (by decide)

theorem balanced_all {escape : Char} (hescape : escape ∉ ['(', ')', '?']) :
    ∀ (cs : List Condition), AllPlain escape cs → ∀ c ∈ cs, c.Balanced
  | [], _ => by simp
  | c :: cs, h => List.forall_mem_cons.2 ⟨c.balanced hescape h.1, balanced_all hescape cs h.2⟩

end

end Worklist.Sql
