import Worklist.Like.Expression

/-!
# Regular expressions for patterns

The regular expressions that patterns need have no groups and no alternatives: after the switches
they are a row of anchors, single characters and repeated ones.

* `Regex.text` writes such an expression, with a way to quote characters.
* `Regex.finds` is the search for it in a value: it may begin anywhere, and the anchors ask for the
  two ends of the value.  Without the switch for line breaks, `.` takes no line feed.
* `Like.Engine.Decides` says of a library that it accepts all of these texts and tests by the
  search.  `Like.plainEngine` is such a library, which reads no other expressions
  (`plainEngine_decides`).
-/

namespace Worklist

/-! ## Expressions -/

/-- What takes one character: a character itself, or the dot. -/
inductive Regex.Atom where
  | char (c : Char)
  | dot
  deriving DecidableEq

/-- An anchor, an atom, or an atom that is repeated any number of times. -/
inductive Regex.Element where
  | start
  | stop
  | one (a : Atom)
  | many (a : Atom)
  deriving DecidableEq

/-- An expression with its switches: whether case counts, and whether a dot takes a line feed. -/
structure Regex where
  ignoreCase : Bool
  dotAll : Bool
  elements : List Regex.Element
  deriving DecidableEq

namespace Regex

/-! ## Texts -/

def Atom.text (quote : Char → String) : Atom → String
  | char c => quote c
  | dot => "."

def Element.text (quote : Char → String) : Element → String
  | start => "^"
  | stop => "$"
  | one a => a.text quote
  | many a => a.text quote ++ "*"

/-- The texts of elements in a row. -/
def rowText (quote : Char → String) : List Element → String
  | [] => ""
  | e :: es => e.text quote ++ rowText quote es

/-- The switches that are on. -/
def switchText : Bool → Bool → String
  | true, true => "(?is)"
  | true, false => "(?i)"
  | false, true => "(?s)"
  | false, false => ""

def text (quote : Char → String) (r : Regex) : String :=
  switchText r.ignoreCase r.dotAll ++ rowText quote r.elements

/-! ## Searches -/

/-- Whether an atom takes a character. -/
def takes (r : Regex) : Atom → Char → Bool
  | .char p, c => if r.ignoreCase then Text.fold c == Text.fold p else c == p
  | .dot, c => r.dotAll || c != '\n'

/-- Whether a test holds after some of the next characters, which have to be taken.  The flag tells
whether the place is the beginning of the value. -/
def afterRun (take : Char → Bool) (test : Bool → List Char → Bool) (atStart : Bool) :
    List Char → Bool
  | [] => test atStart []
  | c :: cs => test atStart (c :: cs) || take c && afterRun take test false cs

/-- Whether elements match from a place on, with what is left of the value. -/
def runs (r : Regex) : List Element → Bool → List Char → Bool
  | [], _, _ => true
  | .start :: es, atStart, cs => atStart && r.runs es atStart cs
  | .stop :: es, atStart, cs => cs.isEmpty && r.runs es atStart cs
  | .one a :: es, _, cs =>
    match cs with
    | [] => false
    | c :: cs => r.takes a c && r.runs es false cs
  | .many a :: es, atStart, cs => afterRun (r.takes a) (r.runs es) atStart cs

/-- Whether an expression matches somewhere in a value. -/
def finds (r : Regex) (value : String) : Bool :=
  afterRun (fun _ => true) (r.runs r.elements) true value.toList

theorem afterRun_iff {take : Char → Bool} {test : Bool → List Char → Bool} {atStart : Bool}
    {cs : List Char} :
    afterRun take test atStart cs = true ↔
      ∃ run rest, cs = run ++ rest ∧ (∀ c ∈ run, take c = true) ∧
        test (atStart && run.isEmpty) rest = true := by
  induction cs generalizing atStart with
  | nil =>
    constructor
    · exact fun h => ⟨[], [], rfl, List.forall_mem_nil _, by rwa [List.isEmpty_nil, Bool.and_true]⟩
    · rintro ⟨run, rest, heq, -, h⟩
      obtain ⟨rfl, rfl⟩ := List.nil_eq_append_iff.1 heq
      rwa [List.isEmpty_nil, Bool.and_true] at h
  | cons c cs ih =>
    rw [afterRun, Bool.or_eq_true, Bool.and_eq_true, ih]
    constructor
    · rintro (h | ⟨hc, run, rest, rfl, hrun, h⟩)
      · exact ⟨[], _, rfl, List.forall_mem_nil _, by rwa [List.isEmpty_nil, Bool.and_true]⟩
      · refine ⟨c :: run, rest, rfl, List.forall_mem_cons.2 ⟨hc, hrun⟩, ?_⟩
        rwa [List.isEmpty_cons, Bool.and_false]
    · rintro ⟨run, rest, heq, hrun, h⟩
      cases run with
      | nil =>
        rw [List.isEmpty_nil, Bool.and_true] at h
        exact .inl (heq ▸ h)
      | cons _ run =>
        cases heq
        obtain ⟨hc, hrun⟩ := List.forall_mem_cons.1 hrun
        rw [List.isEmpty_cons, Bool.and_false] at h
        exact .inr ⟨hc, run, rest, rfl, hrun, h⟩

theorem runs_one_iff {r : Regex} {a : Atom} {es : List Element} {atStart : Bool} {cs : List Char} :
    r.runs (.one a :: es) atStart cs = true ↔
      ∃ c rest, cs = c :: rest ∧ r.takes a c = true ∧ r.runs es false rest = true := by
  cases cs with
  | nil => exact ⟨nofun, nofun⟩
  | cons c cs =>
    rw [runs, Bool.and_eq_true]
    constructor
    · exact fun ⟨hc, hruns⟩ => ⟨c, cs, rfl, hc, hruns⟩
    · rintro ⟨_, _, heq, hc, hruns⟩
      cases heq
      exact ⟨hc, hruns⟩

/-- An expression with an anchor for the beginning matches there or not at all. -/
theorem finds_start {r : Regex} {es : List Element} (h : r.elements = .start :: es)
    {value : String} : r.finds value = r.runs es true value.toList := by
  rw [Bool.eq_iff_iff, finds, h, afterRun_iff]
  constructor
  · rintro ⟨run, rest, heq, -, hruns⟩
    rw [runs, Bool.and_eq_true, Bool.true_and, List.isEmpty_iff] at hruns
    obtain ⟨rfl, hruns⟩ := hruns
    rwa [heq]
  · intro hruns
    exact ⟨[], _, rfl, List.forall_mem_nil _, hruns⟩

end Regex

/-! ## Libraries -/

/-- A library that reads the expressions for patterns as they are meant: it refuses none of them
and tests values by the search. -/
def Like.Engine.Decides {ε : Type} (engine : Like.Engine ε) : Prop :=
  ∀ r : Regex, ∃ test, engine.compile (r.text engine.quote) = .ok test ∧
    ∀ value, test value = r.finds value

namespace Regex

/-- The characters that have a meaning in expressions. -/
def isMeta (c : Char) : Bool :=
  ['\\', '.', '+', '*', '?', '(', ')', '|', '[', ']', '{', '}', '^', '$', '#', '&', '-',
    '~'].contains c

/-- A character with a backslash, if it has a meaning. -/
def quoted (c : Char) : String := if isMeta c then String.ofList ['\\', c] else String.ofList [c]

/-- A row whose first element is still to be repeated if the flag is on, because a star comes before
the other elements. -/
abbrev Row := Bool × List Element

def Row.atom (a : Atom) : Row → Row
  | (starred, es) => (false, (if starred then .many a else .one a) :: es)

/-- A star after an anchor has no meaning. -/
def Row.anchor? (e : Element) : Row → Option Row
  | (starred, es) => if starred then none else some (false, e :: es)

def Row.star? : Row → Option Row
  | (starred, es) => if starred then none else some (true, es)

/-- Reads a row from its end. -/
def readRow? : List Char → Option Row
  | [] => some (false, [])
  | c :: cs =>
    if c = '\\' then
      match cs with
      | [] => none
      | d :: cs => if isMeta d then (readRow? cs).map (Row.atom (.char d)) else none
    else if c = '.' then (readRow? cs).map (Row.atom .dot)
    else if c = '*' then (readRow? cs).bind Row.star?
    else if c = '^' then (readRow? cs).bind (Row.anchor? .start)
    else if c = '$' then (readRow? cs).bind (Row.anchor? .stop)
    else if isMeta c then none
    else (readRow? cs).map (Row.atom (.char c))

/-- Reads the elements after the switches. -/
def ofRow? (ignoreCase dotAll : Bool) (cs : List Char) : Option Regex :=
  match readRow? cs with
  | some (false, elements) => some { ignoreCase, dotAll, elements }
  | _ => none

/-- Reads switches until the bracket closes. -/
def ofSwitches? (ignoreCase dotAll : Bool) : List Char → Option Regex
  | ')' :: cs => ofRow? ignoreCase dotAll cs
  | 'i' :: cs => ofSwitches? true dotAll cs
  | 's' :: cs => ofSwitches? ignoreCase true cs
  | _ => none

def ofText? : List Char → Option Regex
  | '(' :: '?' :: cs => ofSwitches? false false cs
  | cs => ofRow? false false cs

theorem readRow?_of_ne {c : Char} {cs : List Char} (h : c ≠ '\\') : readRow? (c :: cs) =
    if c = '.' then (readRow? cs).map (Row.atom .dot)
    else if c = '*' then (readRow? cs).bind Row.star?
    else if c = '^' then (readRow? cs).bind (Row.anchor? .start)
    else if c = '$' then (readRow? cs).bind (Row.anchor? .stop)
    else if isMeta c then none
    else (readRow? cs).map (Row.atom (.char c)) := by
  cases cs with
  | nil => simp only [readRow?, if_neg h]
  | cons d cs => rw [readRow?, if_neg h]

theorem readRow?_atom (a : Atom) (cs : List Char) :
    readRow? ((a.text quoted).toList ++ cs) = (readRow? cs).map (Row.atom a) := by
  cases a with
  | dot => exact (readRow?_of_ne (by decide)).trans (if_pos rfl)
  | char c =>
    rw [Atom.text, quoted]
    by_cases hmeta : isMeta c = true
    · rw [if_pos hmeta, String.toList_ofList, List.cons_append, List.singleton_append, readRow?,
        if_pos rfl, if_pos hmeta]
    · have hne : ∀ m, isMeta m = true → c ≠ m := by
        rintro m hm rfl
        exact hmeta hm
      rw [if_neg hmeta, String.toList_ofList, List.singleton_append,
        readRow?_of_ne (hne '\\' rfl), if_neg (hne '.' rfl), if_neg (hne '*' rfl),
        if_neg (hne '^' rfl), if_neg (hne '$' rfl), if_neg hmeta]

/-- What is written is read again. -/
theorem readRow?_rowText (es : List Element) :
    readRow? (rowText quoted es).toList = some (false, es) := by
  induction es with
  | nil => rfl
  | cons e es ih =>
    rw [rowText, String.toList_append]
    cases e with
    | start =>
      rw [show (Element.start.text quoted).toList = ['^'] from rfl, List.singleton_append,
        readRow?_of_ne (by decide), ih]
      rfl
    | stop =>
      rw [show (Element.stop.text quoted).toList = ['$'] from rfl, List.singleton_append,
        readRow?_of_ne (by decide), ih]
      rfl
    | one a =>
      rw [Element.text, readRow?_atom, ih]
      rfl
    | many a =>
      have hstar : readRow? ('*' :: (rowText quoted es).toList) = some (true, es) := by
        rw [readRow?_of_ne (by decide), ih]
        rfl
      rw [Element.text, String.toList_append, List.append_assoc, readRow?_atom]
      exact congrArg (·.map (Row.atom a)) hstar

theorem ofText?_text (r : Regex) : ofText? (r.text quoted).toList = some r := by
  obtain ⟨ignoreCase, dotAll, es⟩ := r
  have hrow : ∀ ignoreCase dotAll,
      ofRow? ignoreCase dotAll (rowText quoted es).toList = some ⟨ignoreCase, dotAll, es⟩ := by
    intro ignoreCase dotAll
    rw [ofRow?, readRow?_rowText]
  rw [text, String.toList_append]
  match ignoreCase, dotAll with
  | true, true =>
    rw [show (switchText true true).toList = ['(', '?', 'i', 's', ')'] by decide]
    exact hrow true true
  | true, false =>
    rw [show (switchText true false).toList = ['(', '?', 'i', ')'] by decide]
    exact hrow true false
  | false, true =>
    rw [show (switchText false true).toList = ['(', '?', 's', ')'] by decide]
    exact hrow false true
  | false, false =>
    -- a row never begins with a bracket, so it is not taken for switches
    have hread := readRow?_rowText es
    have hrow := hrow false false
    rw [show (switchText false false).toList = [] by decide, List.nil_append]
    simp only at hrow ⊢
    generalize (rowText quoted es).toList = cs at hread hrow
    rw [ofText?]
    · exact hrow
    · rintro cs rfl
      rw [readRow?_of_ne (by decide)] at hread
      cases hread

end Regex

/-- The library that reads the expressions for patterns and no others. -/
def Like.plainEngine : Like.Engine Unit where
  quote := Regex.quoted
  compile text :=
    match Regex.ofText? text.toList with
    | some r => .ok r.finds
    | none => .error ()

theorem Like.plainEngine_decides : plainEngine.Decides := by
  intro r
  refine ⟨r.finds, ?_, fun _ => rfl⟩
  simp only [plainEngine, Regex.ofText?_text]

end Worklist
