import Worklist.Proofs.Sql.Marks

/-!
# Conditions that are read back

A reader for the text of conditions.  The words that it knows are written out here, as SQL has them,
and it takes the values for the question marks in their order.

* `starts`, `operators` and `connectives` are the words, and `Condition.read?` is the reader.  It
  goes over the characters and hands on what is left; its fuel is the length of the text.
* `Readable` says which conditions have a text that tells them: their columns are columns of a known
  table, every mark is for one value, and no list in them is empty.
* `read?_text` is the result: the text and the parameters of a readable condition lead back to it.
-/

namespace Worklist.Sql

/-! ## Words -/

/-- What is read at the front of a text, with the characters and the values that are left. -/
abbrev Front (α : Type) := α × List Char × List Param

/-- Skips a word that has to come next. -/
def word? (word : String) (cs : List Char) : Option (List Char) := word.toList.isPrefixOf? cs

/-- Skips the first of several words that comes next, and says what it stands for. -/
def oneOf? {α : Type} (words : List (String × α)) (cs : List Char) : Option (α × List Char) :=
  words.findSome? fun (word, a) => (word? word cs).map (a, ·)

/-- How a condition starts that does not start with a scalar. -/
inductive Start where
  | bracket
  | anyRow (isNegated : Bool) (source : Source)
  | never

def starts : List (String × Start) :=
  [("(", .bracket),
    ("EXISTS (SELECT 1 FROM ACT_RU_IDENTITYLINK I WHERE ", .anyRow false .identityLinks),
    ("EXISTS (SELECT 1 FROM ACT_RU_VARIABLE V WHERE ", .anyRow false .storedVariables),
    ("NOT EXISTS (SELECT 1 FROM ACT_RU_IDENTITYLINK I WHERE ", .anyRow true .identityLinks),
    ("NOT EXISTS (SELECT 1 FROM ACT_RU_VARIABLE V WHERE ", .anyRow true .storedVariables),
    ("1 = 0", .never)]

/-- A function of scalars. -/
inductive Function where
  | upper
  | coalesce

def functions : List (String × Function) := [("UPPER(", .upper), ("COALESCE(", .coalesce)]

/-- How a condition goes on behind a scalar. -/
inductive Operator where
  | compare (relation : Relation)
  | like (isNegated : Bool)
  | isIn (isNegated : Bool)
  | isNull (isNegated : Bool)

def operators : List (String × Operator) :=
  [(" = ", .compare .eq), (" <> ", .compare .ne), (" < ", .compare .lt), (" > ", .compare .gt),
    (" >= ", .compare .ge), (" <= ", .compare .le), (" LIKE ", .like false),
    (" NOT LIKE ", .like true), (" IN (", .isIn false), (" NOT IN (", .isIn true),
    (" IS NULL", .isNull false), (" IS NOT NULL", .isNull true)]

/-- What stands between two conditions. -/
def connectives : List (String × Connective) := [(" AND ", .and), (" OR ", .or)]

/-! ## Scalars -/

/-- A character of a name. -/
def isNameChar (c : Char) : Bool := c.isAlphanum || c == '_' || c == '.'

/-- The name of a column behind the letters of its table. -/
def isColumnName (name : List Char) : Bool :=
  name.all isNameChar && ["RES.", "D.", "I.", "V."].any fun table => table.toList.isPrefixOf name

/-- A column, a literal, or a mark, which takes the next value. -/
def operand? : List Char → List Param → Option (Front Expr)
  | '?' :: cs, p :: ps => some (.marks [p], cs, ps)
  | '\'' :: cs, ps => do
    let rest ← word? "'" (cs.dropWhile (· != '\''))
    return (.literal (String.ofList (cs.takeWhile (· != '\''))), rest, ps)
  | cs, ps =>
    let name := cs.takeWhile isNameChar
    if isColumnName name then some (.column (String.ofList name), cs.dropWhile isNameChar, ps)
    else none

/-- A scalar expression.  The arguments of its functions are no functions again. -/
def expr? (cs : List Char) (ps : List Param) : Option (Front Expr) :=
  match oneOf? functions cs with
  | some (.upper, cs) => do
    let (e, cs, ps) ← operand? cs ps
    return (.upper e, ← word? ")" cs, ps)
  | some (.coalesce, cs) => do
    let (first, cs, ps) ← operand? cs ps
    let (second, cs, ps) ← operand? (← word? ", " cs) ps
    return (.coalesce first second, ← word? ")" cs, ps)
  | none => operand? cs ps

/-- Scalars with commas between them, and the bracket behind them. -/
def options? : Nat → List Char → List Param → Option (Front (List Expr))
  | 0, _, _ => none
  | fuel + 1, cs, ps => do
    let (e, cs, ps) ← operand? cs ps
    match word? ", " cs with
    | some cs =>
      let (es, cs, ps) ← options? fuel cs ps
      return (e :: es, cs, ps)
    | none => return ([e], ← word? ")" cs, ps)

/-! ## Conditions -/

/-- A condition that starts with a scalar.  The escape character of a pattern stands between its
quotes as it is. -/
def comparison? (fuel : Nat) (cs : List Char) (ps : List Param) : Option (Front Condition) := do
  let (left, cs, ps) ← expr? cs ps
  match ← oneOf? operators cs with
  | (.compare relation, cs) =>
    let (right, cs, ps) ← expr? cs ps
    return (.compare left relation right, cs, ps)
  | (.like isNegated, cs) =>
    let (right, cs, ps) ← expr? cs ps
    match ← word? " ESCAPE '" cs with
    | escape :: '\'' :: cs => return (.like isNegated left right escape, cs, ps)
    | _ => none
  | (.isIn isNegated, cs) =>
    let (options, cs, ps) ← options? fuel cs ps
    return (.isIn isNegated left options, cs, ps)
  | (.isNull isNegated, cs) => return (.isNull isNegated left, cs, ps)

mutual

/-- A condition. -/
def condition? : Nat → List Char → List Param → Option (Front Condition)
  | 0, _, _ => none
  | fuel + 1, cs, ps =>
    match oneOf? starts cs with
    | some (.bracket, cs) => do
      let (first, cs, ps) ← condition? fuel cs ps
      let (connective, _) ← oneOf? connectives cs
      let (more, cs, ps) ← more? fuel connective cs ps
      return (.bracket connective (first :: more), ← word? ")" cs, ps)
    | some (.anyRow isNegated source, cs) => do
      let (first, cs, ps) ← condition? fuel cs ps
      let (more, cs, ps) ← more? fuel .and cs ps
      return (.anyRow isNegated source (first :: more), ← word? ")" cs, ps)
    | some (.never, cs) => some (.never, cs, ps)
    | none => comparison? fuel cs ps

/-- The conditions that follow one behind the same connective. -/
def more? : Nat → Connective → List Char → List Param → Option (Front (List Condition))
  | 0, _, _, _ => none
  | fuel + 1, connective, cs, ps =>
    match oneOf? connectives cs with
    | some (next, cs) =>
      if next = connective then do
        let (c, cs, ps) ← condition? fuel cs ps
        let (more, cs, ps) ← more? fuel connective cs ps
        return (c :: more, cs, ps)
      else none
    | none => some ([], cs, ps)

end

/-- The condition that a text and the values for its marks stand for. -/
def Condition.read? (text : String) (params : List Param) : Option Condition :=
  match condition? (text.length + 1) text.toList params with
  | some (c, [], []) => some c
  | _ => none

/-! ## Readable conditions -/

/-- A column, a literal without quotes, or one mark. -/
inductive Expr.IsOperand : Expr → Prop where
  | column {name : String} (h : isColumnName name.toList = true) : IsOperand (.column name)
  | literal {s : String} (h : IsQuiet s) : IsOperand (.literal s)
  | mark (p : Param) : IsOperand (.marks [p])

inductive Expr.Readable : Expr → Prop where
  | operand {e : Expr} (h : e.IsOperand) : Readable e
  | upper {e : Expr} (h : e.IsOperand) : Readable (.upper e)
  | coalesce {first second : Expr} (h : first.IsOperand) (h' : second.IsOperand) :
      Readable (.coalesce first second)

/-- A condition without empty lists, in which a bracket has a connective and all patterns have one
escape character. -/
inductive Condition.Readable (escape : Char) : Condition → Prop where
  | compare {left right : Expr} (h : left.Readable) (relation : Relation) (h' : right.Readable) :
      Readable escape (.compare left relation right)
  | like {left right : Expr} (isNegated : Bool) (h : left.Readable) (h' : right.Readable) :
      Readable escape (.like isNegated left right escape)
  | isIn {left : Expr} {options : List Expr} (isNegated : Bool) (h : left.Readable)
      (hne : options ≠ []) (hall : ∀ o ∈ options, o.IsOperand) :
      Readable escape (.isIn isNegated left options)
  | isNull {e : Expr} (isNegated : Bool) (h : e.Readable) : Readable escape (.isNull isNegated e)
  | anyRow {conditions : List Condition} (isNegated : Bool) (source : Source)
      (hne : conditions ≠ []) (hall : ∀ c ∈ conditions, Readable escape c) :
      Readable escape (.anyRow isNegated source conditions)
  | bracket {conditions : List Condition} (connective : Connective)
      (hlength : 2 ≤ conditions.length) (hall : ∀ c ∈ conditions, Readable escape c) :
      Readable escape (.bracket connective conditions)
  | never : Readable escape .never

/-! ## Scalars are read back -/

/-- No name goes on here. -/
def EndsName (cs : List Char) : Prop := ∀ c ∈ cs.head?, isNameChar c = false

theorem endsName_cons {c : Char} (h : isNameChar c = false) (cs : List Char) :
    EndsName (c :: cs) := by
  intro d hd
  cases hd
  exact h

theorem word?_append (word : String) (cs : List Char) : word? word (word.toList ++ cs) = some cs := by
  rw [word?]
  induction word.toList with
  | nil => rfl
  | cons c chars ih => exact (if_pos (beq_self_eq_true c)).trans ih

/-- The characters of one kind in front of the first that is of another kind. -/
theorem span_append {p : Char → Bool} {front rest : List Char} (h : ∀ c ∈ front, p c = true)
    (hrest : ∀ c ∈ rest.head?, p c = false) :
    (front ++ rest).takeWhile p = front ∧ (front ++ rest).dropWhile p = rest := by
  rw [List.takeWhile_append_of_pos h, List.dropWhile_append_of_pos h]
  cases rest with
  | nil => exact ⟨List.append_nil front, rfl⟩
  | cons c cs =>
    have hc : ¬p c = true := Bool.eq_false_iff.1 (hrest c rfl)
    rw [List.takeWhile_cons_of_neg hc, List.dropWhile_cons_of_neg hc]
    exact ⟨List.append_nil front, rfl⟩

/-- A column starts with a letter of its table. -/
theorem exists_column_cons {name : List Char} (h : isColumnName name = true) :
    ∃ c cs, name = c :: cs ∧ c ∈ ['R', 'D', 'I', 'V'] := by
  rw [isColumnName, Bool.and_eq_true, List.any_eq_true] at h
  obtain ⟨-, table, htable, hfront⟩ := h
  obtain ⟨rest, rfl⟩ := List.isPrefixOf_iff_prefix.1 hfront
  simp only [List.mem_cons, List.not_mem_nil, or_false] at htable
  rcases htable with rfl | rfl | rfl | rfl <;> exact ⟨_, _, rfl, by decide⟩

theorem operand?_column {name : List Char} (h : isColumnName name = true) {cs : List Char}
    (hcs : EndsName cs) (ps : List Param) :
    operand? (name ++ cs) ps = some (.column (String.ofList name), cs, ps) := by
  have hall : ∀ c ∈ name, isNameChar c = true := by
    rw [isColumnName, Bool.and_eq_true, List.all_eq_true] at h
    exact h.1
  obtain ⟨htake, hdrop⟩ := span_append hall hcs
  obtain ⟨c, rest, rfl, hc⟩ := exists_column_cons h
  rw [List.cons_append] at htake hdrop ⊢
  rw [operand?]
  · simp only [htake, hdrop, h, if_true]
  · intro _ heq
    cases heq
    exact absurd hc (by decide)
  · intro _ _ _ heq
    cases heq
    exact absurd hc (by decide)

theorem text_mark (p : Param) : (Expr.marks [p]).text = "?" := by
  simp [Expr.text, markList, joined]

theorem operand?_literal {s : String} (h : IsQuiet s) (cs : List Char) (ps : List Param) :
    operand? ((Expr.literal s).text.toList ++ cs) ps = some (.literal s, cs, ps) := by
  have hquote : ("'" : String).toList = ['\''] := rfl
  have hall : ∀ c ∈ s.toList, (c != '\'') = true := by
    intro c hc
    rw [bne_iff_ne]
    rintro rfl
    exact h.2.2.2 hc
  have hstop : ∀ c ∈ ('\'' :: cs).head?, (c != '\'') = false := by simp
  obtain ⟨htake, hdrop⟩ := span_append hall hstop
  rw [Expr.text, String.toList_append, String.toList_append, hquote, List.append_assoc,
    List.append_assoc, List.singleton_append, List.singleton_append, operand?, htake, hdrop,
    String.ofList_toList]
  rfl

/-- An operand in front of a character that no name contains. -/
theorem operand?_text {e : Expr} (h : e.IsOperand) {cs : List Char} (hcs : EndsName cs)
    (ps : List Param) : operand? (e.text.toList ++ cs) (e.params ++ ps) = some (e, cs, ps) := by
  cases h with
  | column h =>
    have hread := operand?_column h hcs ps
    rwa [String.ofList_toList] at hread
  | literal h => exact operand?_literal h cs ps
  | mark p =>
    rw [text_mark]
    rfl

/-- What an operand starts with. -/
theorem exists_operand_cons {e : Expr} (h : e.IsOperand) :
    ∃ c cs, e.text.toList = c :: cs ∧ c ∈ ['R', 'D', 'I', 'V', '\'', '?'] := by
  cases h with
  | column h =>
    obtain ⟨c, cs, heq, hc⟩ := exists_column_cons h
    exact ⟨c, cs, heq, List.mem_append_left ['\'', '?'] hc⟩
  | literal h =>
    rw [Expr.text, String.append_assoc, String.toList_append]
    exact ⟨'\'', _, rfl, by decide⟩
  | mark p =>
    rw [text_mark]
    exact ⟨'?', [], rfl, by decide⟩

/-- A scalar in front of a character that no name contains. -/
theorem expr?_text {e : Expr} (h : e.Readable) {cs : List Char} (hcs : EndsName cs)
    (ps : List Param) : expr? (e.text.toList ++ cs) (e.params ++ ps) = some (e, cs, ps) := by
  have hclose (cs : List Char) : EndsName (")".toList ++ cs) := endsName_cons (by decide) cs
  have hcomma (cs : List Char) : EndsName (", ".toList ++ cs) := endsName_cons (by decide) _
  cases h with
  | operand h =>
    have hread := operand?_text h hcs ps
    obtain ⟨c, rest, heq, hc⟩ := exists_operand_cons h
    have hnone : oneOf? functions (c :: (rest ++ cs)) = none := by
      simp only [List.mem_cons, List.not_mem_nil, or_false] at hc
      rcases hc with rfl | rfl | rfl | rfl | rfl | rfl <;> rfl
    rw [heq, List.cons_append] at hread ⊢
    rw [expr?, hnone]
    exact hread
  | @upper e h =>
    have hword (cs : List Char) : oneOf? functions ("UPPER(".toList ++ cs) = some (.upper, cs) := rfl
    rw [Expr.text, Expr.params, String.toList_append, String.toList_append, List.append_assoc,
      List.append_assoc, expr?, hword]
    simp only [operand?_text h (hclose cs), word?_append, some_bind]
    rfl
  | @coalesce first second h h' =>
    have hword (cs : List Char) :
        oneOf? functions ("COALESCE(".toList ++ cs) = some (.coalesce, cs) := rfl
    rw [Expr.text, Expr.params, expr?]
    simp only [String.toList_append, List.append_assoc, hword, operand?_text h (hcomma _),
      word?_append, operand?_text h' (hclose cs), some_bind]
    rfl

/-- A scalar is not taken for another start of a condition. -/
theorem oneOf?_starts_expr {e : Expr} (h : e.Readable) (cs : List Char) :
    oneOf? starts (e.text.toList ++ cs) = none := by
  cases h with
  | operand h =>
    obtain ⟨c, rest, heq, hc⟩ := exists_operand_cons h
    rw [heq, List.cons_append]
    simp only [List.mem_cons, List.not_mem_nil, or_false] at hc
    rcases hc with rfl | rfl | rfl | rfl | rfl | rfl <;> rfl
  | upper h =>
    rw [Expr.text, String.append_assoc, String.toList_append]
    rfl
  | coalesce h h' =>
    rw [Expr.text, String.append_assoc, String.append_assoc, String.append_assoc,
      String.toList_append]
    rfl

theorem options?_text {options : List Expr} (hne : options ≠ [])
    (h : ∀ o ∈ options, o.IsOperand) {fuel : Nat}
    (hfuel : (joined ", " (options.map Expr.text)).length < fuel) (cs : List Char)
    (ps : List Param) :
    options? fuel ((joined ", " (options.map Expr.text)).toList ++ ')' :: cs)
      (options.flatMap Expr.params ++ ps) = some (options, cs, ps) := by
  induction options generalizing fuel with
  | nil => exact absurd rfl hne
  | cons o options ih =>
    rw [List.forall_mem_cons] at h
    cases fuel with
    | zero => cases hfuel
    | succ fuel =>
      cases options with
      | nil =>
        have hend : EndsName (')' :: cs) := endsName_cons (by decide) cs
        have hlast : joined ", " ([o].map Expr.text) = o.text := by simp [joined]
        rw [hlast, List.flatMap_singleton, options?, operand?_text h.1 hend]
        rfl
      | cons o' options =>
        have hcons : joined ", " ((o :: o' :: options).map Expr.text) =
            o.text ++ ", " ++ joined ", " ((o' :: options).map Expr.text) := by
          rw [List.map_cons, List.map_cons, joined, String.intercalate_cons_cons]
          rfl
        have hcomma (cs : List Char) : EndsName (", ".toList ++ cs) :=
          endsName_cons (by decide) _
        have hlength : (", " : String).length = 2 := rfl
        rw [hcons, String.length_append, String.length_append, hlength] at hfuel
        have hrest := ih (List.cons_ne_nil _ _) h.2 (show _ < fuel by omega)
        rw [hcons, List.flatMap_cons, String.toList_append, String.toList_append,
          List.append_assoc, List.append_assoc, List.append_assoc, options?,
          operand?_text h.1 (hcomma _)]
        simp only [some_bind, word?_append, hrest]
        rfl

/-! ## Conditions are read back -/

/-- A reader with this fuel takes the text and the parameters of a condition. -/
def Condition.ReadsBack (c : Condition) (fuel : Nat) : Prop :=
  ∀ cs ps, EndsName cs → condition? fuel (c.text.toList ++ cs) (c.params ++ ps) = some (c, cs, ps)

section Comparisons

variable {left right : Expr} {fuel : Nat}

theorem endsName_space (cs : List Char) : EndsName (" ".toList ++ cs) :=
  endsName_cons (by decide) cs

theorem condition?_of_expr (h : left.Readable) (cs : List Char) (ps : List Param) :
    condition? (fuel + 1) (left.text.toList ++ cs) ps =
      comparison? fuel (left.text.toList ++ cs) ps := by
  rw [condition?, oneOf?_starts_expr h]

theorem readsBack_compare (h : left.Readable) (relation : Relation) (h' : right.Readable) :
    (Condition.compare left relation right).ReadsBack (fuel + 1) := by
  intro cs ps hcs
  have hword (cs : List Char) : oneOf? operators
      (" ".toList ++ (relation.text.toList ++ (" ".toList ++ cs))) =
        some (.compare relation, cs) := by
    cases relation <;> rfl
  simp only [Condition.text, Condition.params, String.toList_append, List.append_assoc]
  rw [condition?_of_expr h, comparison?, expr?_text h (endsName_space _)]
  simp only [some_bind, hword, expr?_text h' hcs]
  rfl

theorem readsBack_like (isNegated : Bool) (h : left.Readable) (h' : right.Readable)
    (escape : Char) : (Condition.like isNegated left right escape).ReadsBack (fuel + 1) := by
  intro cs ps hcs
  have hword (cs : List Char) : oneOf? operators
      (" ".toList ++ ((notText isNegated).toList ++ ("LIKE ".toList ++ cs))) =
        some (.like isNegated, cs) := by
    cases isNegated <;> rfl
  have hescape (cs : List Char) : EndsName (" ESCAPE '".toList ++ cs) :=
    endsName_cons (by decide) _
  have hchar : escape.toString.toList = [escape] := by simp
  simp only [Condition.text, Condition.params, String.toList_append, List.append_assoc, hchar]
  rw [condition?_of_expr h, comparison?, expr?_text h (endsName_space _)]
  simp only [some_bind, hword, expr?_text h' (hescape _), word?_append]
  rfl

theorem readsBack_isIn (isNegated : Bool) (h : left.Readable) {options : List Expr}
    (hne : options ≠ []) (hall : ∀ o ∈ options, o.IsOperand)
    (hfuel : (joined ", " (options.map Expr.text)).length < fuel) :
    (Condition.isIn isNegated left options).ReadsBack (fuel + 1) := by
  intro cs ps hcs
  have hword (cs : List Char) : oneOf? operators
      (" ".toList ++ ((notText isNegated).toList ++ ("IN (".toList ++ cs))) =
        some (.isIn isNegated, cs) := by
    cases isNegated <;> rfl
  have hclose : (")" : String).toList ++ cs = ')' :: cs := rfl
  simp only [Condition.text, Condition.params, String.toList_append, List.append_assoc, hclose]
  rw [condition?_of_expr h, comparison?, expr?_text h (endsName_space _)]
  simp only [some_bind, hword, options?_text hne hall hfuel]
  rfl

theorem readsBack_isNull (isNegated : Bool) (h : left.Readable) :
    (Condition.isNull isNegated left).ReadsBack (fuel + 1) := by
  intro cs ps hcs
  have hword (cs : List Char) : oneOf? operators
      (" IS ".toList ++ ((notText isNegated).toList ++ ("NULL".toList ++ cs))) =
        some (.isNull isNegated, cs) := by
    cases isNegated <;> rfl
  have hends (cs : List Char) : EndsName (" IS ".toList ++ cs) := endsName_cons (by decide) _
  simp only [Condition.text, Condition.params, String.toList_append, List.append_assoc]
  rw [condition?_of_expr h, comparison?, expr?_text h (hends _)]
  simp only [some_bind, hword]
  rfl

end Comparisons

section Lists

variable {conditions : List Condition} {connective : Connective} {fuel : Nat}

theorem oneOf?_connectives (connective : Connective) (cs : List Char) :
    oneOf? connectives ((" " ++ connective.sql ++ " ").toList ++ cs) = some (connective, cs) := by
  cases connective <;> rfl

theorem endsName_followed (connective : Connective) (ts : List String) (cs : List Char) :
    EndsName ((followed (" " ++ connective.sql ++ " ") true ts).toList ++ ')' :: cs) := by
  cases ts with
  | nil => exact endsName_cons (by decide) cs
  | cons t ts =>
    rw [followed, if_pos rfl]
    simp only [String.toList_append, List.append_assoc]
    exact endsName_space _

/-- The conditions behind the first one, up to the bracket. -/
theorem more?_texts (connective : Connective)
    (h : ∀ c ∈ conditions, ∀ n, c.text.length < n → c.ReadsBack n)
    (hfuel : (followed (" " ++ connective.sql ++ " ") true (texts conditions)).length < fuel)
    (cs : List Char) (ps : List Param) :
    more? fuel connective
        ((followed (" " ++ connective.sql ++ " ") true (texts conditions)).toList ++ ')' :: cs)
        (paramsOfAll conditions ++ ps) = some (conditions, ')' :: cs, ps) := by
  induction conditions generalizing fuel with
  | nil =>
    cases fuel with
    | zero => cases hfuel
    | succ fuel => rfl
  | cons c conditions ih =>
    rw [List.forall_mem_cons] at h
    cases fuel with
    | zero => cases hfuel
    | succ fuel =>
      have hlead : 0 < (" " ++ connective.sql ++ " ").length := by
        cases connective <;> decide
      rw [texts, followed, if_pos rfl] at hfuel ⊢
      rw [String.length_append, String.length_append] at hfuel
      have hfirst := h.1 fuel (by omega)
      have hrest := ih h.2 (show _ < fuel by omega)
      rw [String.toList_append, String.toList_append, List.append_assoc, List.append_assoc,
        paramsOfAll, List.append_assoc, more?, oneOf?_connectives]
      simp only [if_pos, hfirst _ _ (endsName_followed connective (texts conditions) cs), some_bind,
        hrest]
      rfl

theorem readsBack_bracket (hlength : 2 ≤ conditions.length)
    (h : ∀ c ∈ conditions, ∀ n, c.text.length < n → c.ReadsBack n)
    (hfuel : (joined (" " ++ connective.sql ++ " ") (texts conditions)).length < fuel) :
    (Condition.bracket connective conditions).ReadsBack (fuel + 1) := by
  intro cs ps hcs
  have hword (cs : List Char) : oneOf? starts ("(".toList ++ cs) = some (.bracket, cs) := rfl
  have hclose : (")" : String).toList ++ cs = ')' :: cs := rfl
  match conditions with
  | first :: second :: conditions =>
    rw [List.forall_mem_cons] at h
    rw [texts, joined_cons, String.length_append] at hfuel
    have hfirst := h.1 fuel (by omega)
    have hmore := more?_texts connective h.2 (show _ < fuel by omega)
    have hnext : ∃ rest, oneOf? connectives ((followed (" " ++ connective.sql ++ " ") true
        (texts (second :: conditions))).toList ++ ')' :: cs) = some (connective, rest) := by
      rw [texts, followed, if_pos rfl, String.toList_append, String.toList_append,
        List.append_assoc, List.append_assoc]
      exact ⟨_, oneOf?_connectives connective _⟩
    obtain ⟨_, hnext⟩ := hnext
    rw [Condition.text, Condition.params, texts, joined_cons, paramsOfAll]
    simp only [String.toList_append, List.append_assoc, hclose]
    rw [condition?]
    simp only [hword, hfirst _ _ (endsName_followed connective _ cs), some_bind, hnext, hmore]
    rfl

theorem readsBack_anyRow (isNegated : Bool) (source : Source) (hne : conditions ≠ [])
    (h : ∀ c ∈ conditions, ∀ n, c.text.length < n → c.ReadsBack n)
    (hfuel : (joined " AND " (texts conditions)).length < fuel) :
    (Condition.anyRow isNegated source conditions).ReadsBack (fuel + 1) := by
  intro cs ps hcs
  have hword (cs : List Char) : oneOf? starts ((notText isNegated).toList ++
      ("EXISTS (SELECT 1 FROM ".toList ++ (source.text.toList ++ (" WHERE ".toList ++ cs)))) =
        some (.anyRow isNegated source, cs) := by
    cases isNegated <;> cases source <;> rfl
  have hclose : (")" : String).toList ++ cs = ')' :: cs := rfl
  have hand : (" AND " : String) = " " ++ Connective.and.sql ++ " " := rfl
  obtain ⟨first, conditions, rfl⟩ := List.exists_cons_of_ne_nil hne
  rw [List.forall_mem_cons] at h
  rw [texts, joined_cons, String.length_append, hand] at hfuel
  have hfirst := h.1 fuel (by omega)
  have hmore := more?_texts .and h.2 (show _ < fuel by omega)
  rw [Condition.text, Condition.params, texts, joined_cons, paramsOfAll, hand]
  simp only [String.toList_append, List.append_assoc, hclose]
  rw [condition?]
  simp only [hword, hfirst _ _ (endsName_followed .and _ cs), some_bind, hmore]
  rfl

end Lists

/-- Without fuel there is nothing to show: every text is at least as long. -/
theorem Condition.readsBack_of_succ {c : Condition}
    (h : ∀ fuel, c.text.length ≤ fuel → c.ReadsBack (fuel + 1)) :
    ∀ fuel, c.text.length < fuel → c.ReadsBack fuel
  | 0, hfuel => absurd hfuel (Nat.not_lt_zero _)
  | fuel + 1, hfuel => h fuel (Nat.le_of_lt_succ hfuel)

/-- Fuel for the length of the text is enough. -/
theorem Condition.Readable.readsBack {escape : Char} {c : Condition} (h : c.Readable escape) :
    ∀ fuel, c.text.length < fuel → c.ReadsBack fuel := by
  -- the lists of a condition have a shorter text
  induction h with
  | compare h relation h' => exact readsBack_of_succ fun _ _ => readsBack_compare h relation h'
  | like isNegated h h' => exact readsBack_of_succ fun _ _ => readsBack_like isNegated h h' escape
  | isIn isNegated h hne hall =>
    refine readsBack_of_succ fun fuel hfuel => readsBack_isIn isNegated h hne hall ?_
    simp only [Condition.text, String.length_append] at hfuel
    have hword : ("IN (" : String).length = 4 := rfl
    omega
  | isNull isNegated h => exact readsBack_of_succ fun _ _ => readsBack_isNull isNegated h
  | anyRow isNegated source hne _ ih =>
    refine readsBack_of_succ fun fuel hfuel => readsBack_anyRow isNegated source hne ih ?_
    simp only [Condition.text, String.length_append] at hfuel
    have hword : (" WHERE " : String).length = 7 := rfl
    omega
  | bracket connective hlength _ ih =>
    refine readsBack_of_succ fun fuel hfuel => readsBack_bracket hlength ih ?_
    rw [Condition.text, String.length_append, String.length_append] at hfuel
    have hword : ("(" : String).length = 1 := rfl
    omega
  | never => exact readsBack_of_succ fun _ _ _ _ _ => rfl

/-- The text of a readable condition says with its parameters what the condition is. -/
theorem Condition.Readable.read?_text {escape : Char} {c : Condition} (h : c.Readable escape) :
    Condition.read? c.text c.params = some c := by
  have hread := h.readsBack (c.text.length + 1) (Nat.lt_succ_self _) [] [] (fun _ hc => nomatch hc)
  rw [List.append_nil, List.append_nil] at hread
  rw [Condition.read?, hread]

/-! ## Readable conditions are plain -/

theorem isQuiet_of_isColumnName {name : String} (h : isColumnName name.toList = true) :
    IsQuiet name := by
  rw [isColumnName, Bool.and_eq_true, List.all_eq_true] at h
  have hnone : ∀ c : Char, isNameChar c = false → c ∉ name.toList := by
    intro c hc hmem
    rw [h.1 c hmem] at hc
    cases hc
  exact ⟨hnone _ rfl, hnone _ rfl, hnone _ rfl, hnone _ rfl⟩

theorem Expr.IsOperand.plain {e : Expr} (h : e.IsOperand) : e.Plain := by
  cases h with
  | column h => exact isQuiet_of_isColumnName h
  | literal h => exact h
  | mark p => trivial

theorem Expr.Readable.plain {e : Expr} (h : e.Readable) : e.Plain := by
  cases h with
  | operand h => exact h.plain
  | upper h => exact h.plain
  | coalesce h h' => exact ⟨h.plain, h'.plain⟩

theorem Condition.Readable.plain {escape : Char} {c : Condition} (h : c.Readable escape) :
    c.Plain escape := by
  induction h with
  | compare h _ h' => exact ⟨h.plain, h'.plain⟩
  | like _ h h' => exact ⟨h.plain, h'.plain, rfl⟩
  | isIn _ h _ hall => exact ⟨h.plain, fun o ho => (hall o ho).plain⟩
  | isNull _ h => exact h.plain
  | anyRow _ _ _ _ ih => exact allPlain_iff.2 ih
  | bracket _ _ _ ih => exact allPlain_iff.2 ih
  | never => trivial

end Worklist.Sql
