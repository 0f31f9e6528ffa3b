import Worklist.Like.Cache

/-!
# Matching through a store

A store is of no consequence for what matches.  Whatever is matched through it, each call answers
what it would without a store, and the store stays within its bounds.

* `key_inj` says that a key has one case switch, one escape character and one text, so a pattern
  under a key is never taken for another one.
* `Sound` is what a store has to be for its answers to be right, and `Sound.tryMatch` is the step
  that keeps it.
* `trace_transparent` is the result for all calls, with every reader of patterns.
-/

namespace Worklist.Like.Cache

variable {ε : Type} {read : Reader ε} {cache : Cache}

/-! ## Keys -/

/-- The digit and the escape character are one character each, so the text is what follows them,
even if the escape character is a digit or the text begins with one. -/
theorem key_inj {ignoreCase ignoreCase' : Bool} {escape escape' : Char} {pattern pattern' : String}
    (h : key ignoreCase escape pattern = key ignoreCase' escape' pattern') :
    ignoreCase = ignoreCase' ∧ escape = escape' ∧ pattern = pattern' := by
  obtain ⟨hdigit, hrest⟩ := List.cons.inj (String.ofList_injective h)
  obtain ⟨hescape, htext⟩ := List.cons.inj hrest
  refine ⟨?_, hescape, String.toList_inj.1 htext⟩
  cases ignoreCase <;> cases ignoreCase' <;> first | rfl | exact absurd hdigit (by decide)

example : key false '1' "0%" ≠ key true '0' "1%" ∧ key false '1' "0%" ≠ key false '1' "%" := by
  decide

/-! ## Sound stores -/

/-- The keys of a store. -/
def keys (cache : Cache) : List String := cache.entries.map (·.1)

/-- A store that answers right: it holds no more patterns than it may and no two under one key, and
each of them is what the reader makes of the text that its key is made of. -/
structure Sound (read : Reader ε) (cache : Cache) : Prop where
  bounded : cache.size ≤ capacity
  nodup : cache.keys.Nodup
  compiled : ∀ entry ∈ cache.entries, ∃ ignoreCase escape pattern,
    entry.1 = key ignoreCase escape pattern ∧ read ignoreCase escape pattern = .ok entry.2

theorem mem_of_find? {k : String} {p : Pattern} (h : cache.find? k = some p) :
    (k, p) ∈ cache.entries := by
  obtain ⟨front, back, hentries, -⟩ := List.lookup_eq_some_iff.1 h
  rw [hentries]
  exact List.mem_append_right front List.mem_cons_self

theorem not_mem_keys_of_find? {k : String} (h : cache.find? k = none) : k ∉ cache.keys := by
  intro hk
  obtain ⟨entry, hentry, rfl⟩ := List.mem_map.1 hk
  exact bne_iff_ne.1 (List.lookup_eq_none_iff.1 h entry hentry) rfl

theorem find?_insert (cache : Cache) (k : String) (p : Pattern) :
    (cache.insert k p).find? k = some p := List.lookup_cons_self

/-- A full store is emptied first. -/
theorem size_insert (cache : Cache) (k : String) (p : Pattern) :
    (cache.insert k p).size = if capacity ≤ cache.size then 1 else cache.size + 1 := by
  rw [insert]
  split <;> rfl

theorem sound_empty (read : Reader ε) : Sound read empty where
  bounded := Nat.zero_le _
  nodup := List.nodup_nil
  compiled := List.forall_mem_nil _

/-- A pattern found under the key of a text is what the reader makes of that text. -/
theorem Sound.find? (h : Sound read cache) {ignoreCase : Bool} {escape : Char} {pattern : String}
    {p : Pattern} (hp : cache.find? (key ignoreCase escape pattern) = some p) :
    read ignoreCase escape pattern = .ok p := by
  obtain ⟨ignoreCase', escape', pattern', hkey, hread⟩ := h.compiled _ (mem_of_find? hp)
  obtain ⟨rfl, rfl, rfl⟩ := key_inj hkey
  exact hread

theorem Sound.insert (h : Sound read cache) {ignoreCase : Bool} {escape : Char} {pattern : String}
    {p : Pattern} (hmiss : cache.find? (key ignoreCase escape pattern) = none)
    (hread : read ignoreCase escape pattern = .ok p) :
    Sound read (cache.insert (key ignoreCase escape pattern) p) where
  bounded := by
    rw [size_insert]
    split
    · decide
    · omega
  nodup := by
    rw [keys, Cache.insert, List.map_cons, List.nodup_cons]
    split
    · exact ⟨List.not_mem_nil, List.nodup_nil⟩
    · exact ⟨not_mem_keys_of_find? hmiss, h.nodup⟩
  compiled entry hentry := by
    rcases List.mem_cons.1 hentry with rfl | hentry
    · exact ⟨ignoreCase, escape, pattern, rfl, hread⟩
    · split at hentry
      · cases hentry
      · exact h.compiled entry hentry

/-! ## Calls -/

/-- A call that uses the store. -/
inductive Call where
  | matching (value pattern : String) (escape : Char) (ignoreCase : Bool)
  | clear

/-- What a call answers without a store; the call that drops all patterns has no answer. -/
def Call.uncached (read : Reader ε) : Call → Option (Except ε Bool)
  | matching value pattern escape ignoreCase =>
    some ((read ignoreCase escape pattern).map (·.accepts value))
  | clear => none

/-- Makes a call: its answer, and the store after it. -/
def call (read : Reader ε) (cache : Cache) : Call → Option (Except ε Bool) × Cache
  | .matching value pattern escape ignoreCase =>
    let (answer, after) := cache.tryMatch read value pattern escape ignoreCase
    (some answer, after)
  | .clear => (none, cache.clear)

/-- The answers of calls made one after the other, each with the store after it. -/
def trace (read : Reader ε) (cache : Cache) : List Call → List (Option (Except ε Bool) × Cache)
  | [] => []
  | c :: calls => cache.call read c :: (cache.call read c).2.trace read calls

/-- Matching through a sound store answers what matching without it does, and leaves the store
sound. -/
theorem Sound.tryMatch (h : Sound read cache) (value pattern : String) (escape : Char)
    (ignoreCase : Bool) :
    (cache.tryMatch read value pattern escape ignoreCase).1 =
        (read ignoreCase escape pattern).map (·.accepts value) ∧
      Sound read (cache.tryMatch read value pattern escape ignoreCase).2 := by
  rw [Cache.tryMatch]
  cases hfind : cache.find? (key ignoreCase escape pattern) with
  | some p =>
    rw [h.find? hfind]
    exact ⟨rfl, h⟩
  | none =>
    cases hread : read ignoreCase escape pattern with
    | ok p => exact ⟨rfl, h.insert hfind hread⟩
    | error e => exact ⟨rfl, h⟩

/-- A pattern that is not refused is in the store afterwards. -/
theorem Sound.find?_tryMatch (h : Sound read cache) (value : String) {pattern : String}
    {escape : Char} {ignoreCase : Bool} {p : Pattern}
    (hread : read ignoreCase escape pattern = .ok p) :
    (cache.tryMatch read value pattern escape ignoreCase).2.find?
      (key ignoreCase escape pattern) = some p := by
  rw [Cache.tryMatch]
  cases hfind : cache.find? (key ignoreCase escape pattern) with
  | some found =>
    have hfound := h.find? hfind
    rw [hread, Except.ok.injEq] at hfound
    rw [hfound]
    exact hfind
  | none =>
    rw [hread]
    exact find?_insert _ _ _

/-- A sound store of the reader that refuses nothing answers whether the value matches. -/
theorem Sound.likeMatches (h : Sound Pattern.read cache) (value pattern : String) (escape : Char)
    (ignoreCase : Bool) :
    (cache.likeMatches value pattern escape ignoreCase).1 =
        Worklist.likeMatches value pattern escape ignoreCase ∧
      Sound Pattern.read (cache.likeMatches value pattern escape ignoreCase).2 := by
  obtain ⟨hanswer, hafter⟩ := h.tryMatch value pattern escape ignoreCase
  rw [Cache.likeMatches]
  rcases hstep : cache.tryMatch Pattern.read value pattern escape ignoreCase with ⟨_ | hit, after⟩
  · contradiction
  · rw [hstep] at hanswer hafter
    exact ⟨Except.ok.inj hanswer, hafter⟩

theorem Sound.call (h : Sound read cache) (c : Call) :
    (cache.call read c).1 = c.uncached read ∧ Sound read (cache.call read c).2 := by
  cases c with
  | matching value pattern escape ignoreCase =>
    obtain ⟨hanswer, hafter⟩ := h.tryMatch value pattern escape ignoreCase
    exact ⟨congrArg some hanswer, hafter⟩
  | clear => exact ⟨rfl, sound_empty read⟩

theorem Sound.trace (h : Sound read cache) (calls : List Call) :
    (cache.trace read calls).map (·.1) = calls.map (Call.uncached read) ∧
      ∀ s ∈ cache.trace read calls, Sound read s.2 := by
  induction calls generalizing cache with
  | nil => exact ⟨rfl, List.forall_mem_nil _⟩
  | cons c calls ih =>
    obtain ⟨hanswer, hafter⟩ := h.call c
    obtain ⟨hanswers, hsound⟩ := ih hafter
    rw [Cache.trace, List.map_cons, List.map_cons, hanswer, hanswers]
    exact ⟨rfl, List.forall_mem_cons.2 ⟨hafter, hsound⟩⟩

/-- Calls through a store that is empty at first, with a reader that may refuse patterns.

Each call answers what it answers without a store.  After each call the store holds at most
`capacity` patterns, no two of them under one key, and each is what the reader makes of the case
switch, the escape character and the text that its key is made of; no key is made of any others. -/
theorem trace_transparent (read : Reader ε) (calls : List Call) :
    (empty.trace read calls).map (·.1) = calls.map (Call.uncached read) ∧
    (∀ s ∈ empty.trace read calls,
      s.2.size ≤ capacity ∧ s.2.keys.Nodup ∧
      ∀ entry ∈ s.2.entries, ∃ ignoreCase escape pattern,
        entry.1 = key ignoreCase escape pattern ∧
          read ignoreCase escape pattern = .ok entry.2) ∧
    ∀ (ignoreCase ignoreCase' : Bool) (escape escape' : Char) (pattern pattern' : String),
      key ignoreCase escape pattern = key ignoreCase' escape' pattern' →
        ignoreCase = ignoreCase' ∧ escape = escape' ∧ pattern = pattern' := by
  obtain ⟨hanswers, hsound⟩ := (sound_empty read).trace calls
  refine ⟨hanswers, fun s hs => ?_, fun _ _ _ _ _ _ => key_inj⟩
  have hs := hsound s hs
  exact ⟨hs.bounded, hs.nodup, hs.compiled⟩

end Worklist.Like.Cache
