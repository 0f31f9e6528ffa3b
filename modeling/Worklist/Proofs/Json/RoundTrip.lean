import Worklist.Proofs.Json.Scalars

/-!
# Texts that are read back

The compact text of a value is read back as the value, if its integers fit in 64 bits and its
containers are not nested too deep.  Only the decimals in it may change.

* `Writable` is the condition, with the number of levels of containers that there is room for, and
  `reread` is the value that is read.
* `ReadsBack` says that a reader with some fuel reads the values whose text is no longer than the
  fuel, and lists of items and members.  There is a step lemma for each kind of container, and
  `readsBack` is the induction on the fuel.
* `ofText?_toText` is the result for whole texts.  For values that `Fits` it gives back the value.
-/

namespace Worklist.Json

/-! ## Values and what they are read as -/

mutual

/-- Integers of 64 bits and at most `room` levels of containers. -/
def Writable : Nat → Json → Prop
  | _, null => True
  | _, bool _ => True
  | _, integer n => IsWord n
  | _, decimal _ => True
  | _, string _ => True
  | room, array items => 0 < room ∧ AllWritable (room - 1) items
  | room, object members => 0 < room ∧ MembersWritable (room - 1) members
  | _, unreadable => False

/-- All items are writable. -/
def AllWritable : Nat → List Json → Prop
  | _, [] => True
  | room, item :: items => Writable room item ∧ AllWritable room items

/-- The values of all members are writable. -/
def MembersWritable : Nat → List (String × Json) → Prop
  | _, [] => True
  | room, (_, value) :: members => Writable room value ∧ MembersWritable room members

end

mutual

/-- What the text of a value is read as. -/
def reread : Json → Json
  | decimal x => rereadDecimal x
  | array items => array (rereadItems items)
  | object members => object (rereadMembers members)
  | j => j

def rereadItems : List Json → List Json
  | [] => []
  | item :: items => reread item :: rereadItems items

def rereadMembers : List (String × Json) → List (String × Json)
  | [] => []
  | (key, value) :: members => (key, reread value) :: rereadMembers members

end

theorem allWritable_iff {room : Nat} {items : List Json} :
    AllWritable room items ↔ ∀ item ∈ items, Writable room item := by
  induction items with
  | nil => simp [AllWritable]
  | cons item items ih => rw [AllWritable, ih, List.forall_mem_cons]

theorem membersWritable_iff {room : Nat} {members : List (String × Json)} :
    MembersWritable room members ↔ ∀ m ∈ members, Writable room m.2 := by
  induction members with
  | nil => simp [MembersWritable]
  | cons m members ih => rw [MembersWritable, ih, List.forall_mem_cons]

theorem rereadItems_eq_map (items : List Json) : rereadItems items = items.map reread := by
  induction items with
  | nil => rfl
  | cons item items ih => rw [rereadItems, ih, List.map_cons]

theorem rereadMembers_eq_map (members : List (String × Json)) :
    rereadMembers members = members.map fun m => (m.1, m.2.reread) := by
  induction members with
  | nil => rfl
  | cons m members ih => rw [rereadMembers, ih, List.map_cons]

theorem reread_array (items : List Json) : (array items).reread = array (items.map reread) := by
  rw [reread, rereadItems_eq_map]

theorem reread_object (members : List (String × Json)) :
    (object members).reread = object (members.map fun m => (m.1, m.2.reread)) := by
  rw [reread, rereadMembers_eq_map]

/-- A writable value whose text leads back to it, as it does if there are no decimals. -/
def Fits (room : Nat) (j : Json) : Prop := j.Writable room ∧ j.reread = j

@[simp] theorem fits_null (room : Nat) : null.Fits room := ⟨trivial, rfl⟩

@[simp] theorem fits_bool (room : Nat) (b : Bool) : (bool b).Fits room := ⟨trivial, rfl⟩

@[simp] theorem fits_string (room : Nat) (s : String) : (string s).Fits room := ⟨trivial, rfl⟩

theorem fits_integer {n : Int} (h : IsWord n) (room : Nat) : (integer n).Fits room := ⟨h, rfl⟩

theorem fits_array {items : List Json} {room : Nat} :
    (array items).Fits (room + 1) ↔ ∀ item ∈ items, item.Fits room := by
  have hself : items.map reread = items.map id ↔ ∀ item ∈ items, item.reread = item :=
    List.map_eq_map_iff
  rw [List.map_id] at hself
  rw [Fits, Writable, Nat.add_sub_cancel, allWritable_iff, reread_array, array.injEq, hself,
    and_iff_right (Nat.succ_pos room)]
  exact ⟨fun h item hitem => ⟨h.1 item hitem, h.2 item hitem⟩,
    fun h => ⟨fun item hitem => (h item hitem).1, fun item hitem => (h item hitem).2⟩⟩

theorem fits_object {members : List (String × Json)} {room : Nat} :
    (object members).Fits (room + 1) ↔ ∀ m ∈ members, m.2.Fits room := by
  have hself : (members.map fun m => (m.1, m.2.reread)) = members.map id ↔
      ∀ m ∈ members, (m.1, m.2.reread) = m := List.map_eq_map_iff
  rw [List.map_id] at hself
  rw [Fits, Writable, Nat.add_sub_cancel, membersWritable_iff, reread_object, object.injEq, hself,
    and_iff_right (Nat.succ_pos room)]
  exact ⟨fun h m hm => ⟨h.1 m hm, congrArg Prod.snd (h.2 m hm)⟩,
    fun h => ⟨fun m hm => (h m hm).1, fun m hm => Prod.ext rfl (h m hm).2⟩⟩

/-! ## First characters -/

/-- A character that is neither a blank nor a bracket that closes. -/
def IsLead (c : Char) : Prop :=
  (c == ' ' || c == '\n' || c == '\t' || c == '\r') = false ∧ c ≠ ']' ∧ c ≠ '\x7d'

instance (c : Char) : Decidable (IsLead c) := inferInstanceAs (Decidable (_ ∧ _ ∧ _))

theorem skipSpace_of_lead {c : Char} (h : IsLead c) (cs : List Char) :
    skipSpace (c :: cs) = c :: cs := by
  rw [skipSpace, List.dropWhile_cons_of_neg]
  rw [h.1]
  exact Bool.false_ne_true

theorem isLead_of_isDigit {c : Char} (h : c.isDigit = true) : IsLead c := by
  have hne : ∀ d : Char, d.isDigit = false → c ≠ d := by
    rintro d hd rfl
    rw [h] at hd
    cases hd
  refine ⟨?_, hne _ rfl, hne _ rfl⟩
  rw [beq_false_of_ne (hne ' ' rfl), beq_false_of_ne (hne '\n' rfl), beq_false_of_ne (hne '\t' rfl),
    beq_false_of_ne (hne '\r' rfl)]
  rfl

/-- A character with which the text of a number starts. -/
def IsNumberLead (c : Char) : Prop := c = '-' ∨ c.isDigit = true

theorem IsNumberLead.isLead {c : Char} (h : IsNumberLead c) : IsLead c := by
  rcases h with rfl | h
  · decide
  · exact isLead_of_isDigit h

theorem exists_writeInteger_cons (n : Int) :
    ∃ c cs, writeInteger n = c :: cs ∧ IsNumberLead c := by
  rw [writeInteger]
  split
  · exact ⟨_, _, rfl, .inl rfl⟩
  · obtain ⟨c, cs, heq, hc⟩ := (isIntegral_toDigits n.natAbs).exists_cons
    exact ⟨c, cs, heq, .inr hc⟩

theorem exists_writeDecimal_cons {x : Binary64} (h : x.isFinite = true) :
    ∃ c cs, writeDecimal x = c :: cs ∧ IsNumberLead c := by
  obtain ⟨ds, fs, tail, exponent, hds, -, -, heq⟩ := exists_writeDecimal_eq h
  rw [heq]
  split
  · exact ⟨_, _, rfl, .inl rfl⟩
  · obtain ⟨c, cs, hcons, hc⟩ := hds.exists_cons
    rw [hcons]
    exact ⟨c, _, rfl, .inr hc⟩

/-- The text of a value is not empty and starts with a character of the value. -/
theorem exists_write_eq {room : Nat} {j : Json} (h : j.Writable room) :
    ∃ c cs, j.write = c :: cs ∧ IsLead c := by
  cases j with
  | null => exact ⟨_, _, rfl, by decide⟩
  | bool b => cases b <;> exact ⟨_, _, rfl, by decide⟩
  | integer n =>
    obtain ⟨c, cs, heq, hc⟩ := exists_writeInteger_cons n
    exact ⟨c, cs, heq, hc.isLead⟩
  | decimal x =>
    by_cases hx : x.isFinite = true
    · obtain ⟨c, cs, heq, hc⟩ := exists_writeDecimal_cons hx
      exact ⟨c, cs, heq, hc.isLead⟩
    · exact ⟨_, _, if_neg hx, by decide⟩
  | string s => exact ⟨_, _, rfl, by decide⟩
  | array items => cases items <;> exact ⟨_, _, rfl, by decide⟩
  | object members => cases members <;> exact ⟨_, _, rfl, by decide⟩
  | unreadable => cases h

/-- What stands behind an item or a member of a container. -/
theorem delimited_writeItems (items : List Json) (rest : List Char) :
    Delimited (writeItems items ++ ']' :: rest) := by
  cases items with
  | nil => exact .inr (.inl rfl)
  | cons item items => exact .inl rfl

theorem delimited_writeMembers (members : List (String × Json)) (rest : List Char) :
    Delimited (writeMembers members ++ '\x7d' :: rest) := by
  cases members with
  | nil => exact .inr (.inr rfl)
  | cons m members => exact .inl rfl

/-! ## Readers with fuel -/

/-- With some fuel the reader gives back every value whose text is no longer than the fuel, and every
list of items or members that stands in a container whose text is no longer. -/
structure ReadsBack (fuel : Nat) : Prop where
  value : ∀ {j : Json} {room depth : Nat} {rest : List Char}, j.Writable room →
    depth + room ≤ depthLimit → j.write.length ≤ fuel → Delimited rest →
      readValue? fuel depth (j.write ++ rest) = some (j.reread, rest)
  items : ∀ {item : Json} {items : List Json} {room depth : Nat} {rest : List Char},
    item.Writable room → AllWritable room items → depth + room ≤ depthLimit →
      (item.write ++ writeItems items).length < fuel →
        readItems? fuel depth (item.write ++ (writeItems items ++ ']' :: rest)) =
          some (item.reread :: items.map reread, rest)
  members : ∀ {key : String} {value : Json} {members : List (String × Json)} {room depth : Nat}
    {rest : List Char}, value.Writable room → MembersWritable room members →
    depth + room ≤ depthLimit →
      (writeString key ++ ':' :: (value.write ++ writeMembers members)).length < fuel →
        readMembers? fuel depth
            (writeString key ++ ':' :: (value.write ++ (writeMembers members ++ '\x7d' :: rest))) =
          some ((some key, value.reread) :: members.map fun m => (some m.1, m.2.reread), rest)

theorem readsBack_zero : ReadsBack 0 where
  value h _ hlength _ := by
    obtain ⟨c, cs, heq, -⟩ := exists_write_eq h
    rw [heq] at hlength
    exact absurd hlength (Nat.not_succ_le_zero _)
  items _ _ _ hlength := absurd hlength (Nat.not_lt_zero _)
  members _ _ _ hlength := absurd hlength (Nat.not_lt_zero _)

section Step

variable {fuel depth room : Nat} {cs rest : List Char}

theorem contained_of_room (h : 0 < room) (hdepth : depth + room ≤ depthLimit) (j : Json) :
    contained depth j = j := if_pos (by omega)

/-- Keys that denote texts make an object. -/
theorem ofMembers_some (members : List (String × Json)) :
    ofMembers (members.map fun m => (some m.1, m.2)) = object members := by
  rw [ofMembers, mapM_map_eq_some]
  exact fun _ _ => rfl

/-- A number is read if the text starts like one. -/
theorem readValue?_number {c : Char} (hc : IsNumberLead c) :
    readValue? (fuel + 1) depth (c :: cs) = readNumber? (c :: cs) := by
  have hne : ∀ d : Char, d ≠ '-' → d.isDigit = false → c ≠ d := by
    rintro d hd hdigit rfl
    rcases hc with rfl | hc
    · exact hd rfl
    · rw [hc] at hdigit
      cases hdigit
  rw [readValue?, skipSpace_of_lead hc.isLead]
  split
  case h_7 => rfl
  all_goals
    rename_i heq
    exact absurd (List.cons.inj heq).1 (hne _ (by decide) rfl)

theorem readValue?_array {items : List Json} (hlead : skipSpace cs = cs)
    (hne : ∀ r, cs ≠ ']' :: r) (h : readItems? fuel (depth + 1) cs = some (items, rest)) :
    readValue? (fuel + 1) depth ('[' :: cs) = some (contained depth (array items), rest) := by
  rw [readValue?, skipSpace_of_lead (by decide)]
  simp only [hlead, h]
  rfl

theorem readValue?_object {members : List (Option String × Json)}
    (h : readMembers? fuel (depth + 1) ('"' :: cs) = some (members, rest)) :
    readValue? (fuel + 1) depth ('\x7b' :: '"' :: cs) =
      some (contained depth (ofMembers members), rest) := by
  rw [readValue?, skipSpace_of_lead (by decide)]
  simp only [skipSpace_of_lead (show IsLead '"' by decide)]
  change Option.map _ (readMembers? fuel (depth + 1) ('"' :: cs)) = _
  rw [h]
  rfl

/-- The step for arrays: no items, or items up to the closing bracket. -/
theorem ReadsBack.array_succ (h : ReadsBack fuel) {items : List Json}
    (hfits : (array items).Writable room) (hroom : depth + room ≤ depthLimit)
    (hlength : (array items).write.length ≤ fuel + 1) :
    readValue? (fuel + 1) depth ((array items).write ++ rest) =
      some ((array items).reread, rest) := by
  obtain ⟨hpos, hitems⟩ := hfits
  cases items with
  | nil =>
    rw [write, reread_array, List.map_nil, ← contained_of_room hpos hroom (array [])]
    rfl
  | cons item items =>
    rw [write, List.length_cons, List.length_append, List.length_singleton] at hlength
    obtain ⟨c, cs, heq, hlead⟩ := exists_write_eq hitems.1
    have hread : readItems? fuel (depth + 1) (item.write ++ (writeItems items ++ ']' :: rest)) =
        some (item.reread :: items.map reread, rest) :=
      h.items hitems.1 hitems.2 (by omega) (by omega)
    have hskip : skipSpace (item.write ++ (writeItems items ++ ']' :: rest)) =
        item.write ++ (writeItems items ++ ']' :: rest) := by
      rw [heq, List.cons_append, skipSpace_of_lead hlead]
    have hne : ∀ r, item.write ++ (writeItems items ++ ']' :: rest) ≠ ']' :: r := by
      intro r hr
      rw [heq, List.cons_append, List.cons.injEq] at hr
      exact hlead.2.1 hr.1
    have hvalue := readValue?_array hskip hne hread
    rw [contained_of_room hpos hroom] at hvalue
    rw [write, List.cons_append, List.append_assoc, List.append_assoc, List.singleton_append,
      hvalue, reread_array, List.map_cons]

/-- The step for objects: no members, or members up to the closing brace. -/
theorem ReadsBack.object_succ (h : ReadsBack fuel) {members : List (String × Json)}
    (hfits : (object members).Writable room) (hroom : depth + room ≤ depthLimit)
    (hlength : (object members).write.length ≤ fuel + 1) :
    readValue? (fuel + 1) depth ((object members).write ++ rest) =
      some ((object members).reread, rest) := by
  obtain ⟨hpos, hmembers⟩ := hfits
  cases members with
  | nil =>
    rw [write, reread_object, List.map_nil, ← contained_of_room hpos hroom (object [])]
    rfl
  | cons m members =>
    obtain ⟨key, value⟩ := m
    rw [write, List.length_cons, List.length_append, List.length_singleton] at hlength
    have hread : readMembers? fuel (depth + 1)
        (writeString key ++ ':' :: (value.write ++ (writeMembers members ++ '\x7d' :: rest))) =
          some ((some key, value.reread) :: members.map fun m => (some m.1, m.2.reread), rest) :=
      h.members hmembers.1 hmembers.2 (by omega) (by simp at hlength ⊢; omega)
    have hvalue := readValue?_object hread
    have hobject := ofMembers_some (((key, value) :: members).map fun m => (m.1, m.2.reread))
    rw [List.map_map, List.map_cons] at hobject
    change ofMembers ((some key, value.reread) :: members.map fun m => (some m.1, m.2.reread)) =
      _ at hobject
    rw [hobject, contained_of_room hpos hroom, ← reread_object] at hvalue
    have htext : write (object ((key, value) :: members)) ++ rest = '\x7b' ::
        (writeString key ++ ':' :: (value.write ++ (writeMembers members ++ '\x7d' :: rest))) := by
      simp [write]
    rw [htext]
    exact hvalue

/-- The step for values. -/
theorem ReadsBack.value_succ (h : ReadsBack fuel) {j : Json} (hfits : j.Writable room)
    (hroom : depth + room ≤ depthLimit) (hlength : j.write.length ≤ fuel + 1)
    (hrest : Delimited rest) :
    readValue? (fuel + 1) depth (j.write ++ rest) = some (j.reread, rest) := by
  cases j with
  | null => rfl
  | bool b => cases b <;> rfl
  | integer n =>
    have hread := readNumber?_writeInteger hfits hrest
    obtain ⟨c, cs, heq, hc⟩ := exists_writeInteger_cons n
    rw [heq, List.cons_append] at hread
    rw [write, heq, List.cons_append, readValue?_number hc, hread]
    rfl
  | decimal x =>
    by_cases hx : x.isFinite = true
    · have hread := readNumber?_writeDecimal hx hrest
      obtain ⟨c, cs, heq, hc⟩ := exists_writeDecimal_cons hx
      rw [heq, List.cons_append] at hread
      rw [write, heq, List.cons_append, readValue?_number hc, hread, reread]
    · rw [write, writeDecimal, if_neg hx, reread, rereadDecimal, if_neg hx]
      rfl
  | string s =>
    rw [write, writeString, List.append_assoc, List.cons_append, readValue?,
      skipSpace_of_lead (by decide)]
    simp only [List.singleton_append, readString?_write]
    rfl
  | array items => exact h.array_succ hfits hroom hlength
  | object members => exact h.object_succ hfits hroom hlength
  | unreadable => cases hfits

/-- The step for the items of an array: one item, and then a comma or the closing bracket. -/
theorem ReadsBack.items_succ (h : ReadsBack fuel) {item : Json} {items : List Json}
    (hitem : item.Writable room) (hitems : AllWritable room items)
    (hroom : depth + room ≤ depthLimit)
    (hlength : (item.write ++ writeItems items).length < fuel + 1) :
    readItems? (fuel + 1) depth (item.write ++ (writeItems items ++ ']' :: rest)) =
      some (item.reread :: items.map reread, rest) := by
  rw [List.length_append] at hlength
  have hread : readValue? fuel depth (item.write ++ (writeItems items ++ ']' :: rest)) =
      some (item.reread, writeItems items ++ ']' :: rest) :=
    h.value hitem hroom (by omega) (delimited_writeItems items rest)
  simp only [readItems?, hread, Option.bind_eq_bind, Option.bind_some]
  cases items with
  | nil => rfl
  | cons next items =>
    rw [writeItems, List.length_cons] at hlength
    rw [writeItems, List.cons_append, skipSpace_of_lead (by decide), List.append_assoc]
    simp only [h.items hitems.1 hitems.2 hroom (by omega), Option.bind_some]
    rfl

/-- The step for the members of an object: key, colon and value, and then a comma or the closing
brace. -/
theorem ReadsBack.members_succ (h : ReadsBack fuel) {key : String} {value : Json}
    {members : List (String × Json)} (hvalue : value.Writable room)
    (hmembers : MembersWritable room members) (hroom : depth + room ≤ depthLimit)
    (hlength :
      (writeString key ++ ':' :: (value.write ++ writeMembers members)).length < fuel + 1) :
    readMembers? (fuel + 1) depth
        (writeString key ++ ':' :: (value.write ++ (writeMembers members ++ '\x7d' :: rest))) =
      some ((some key, value.reread) :: members.map fun m => (some m.1, m.2.reread), rest) := by
  simp only [List.length_append, List.length_cons] at hlength
  have hread : readValue? fuel depth (value.write ++ (writeMembers members ++ '\x7d' :: rest)) =
      some (value.reread, writeMembers members ++ '\x7d' :: rest) :=
    h.value hvalue hroom (by omega) (delimited_writeMembers members rest)
  rw [writeString, List.append_assoc, List.cons_append, readMembers?,
    skipSpace_of_lead (by decide)]
  simp only [List.singleton_append, readString?_write, Option.bind_eq_bind, Option.bind_some,
    skipSpace_of_lead (show IsLead ':' by decide), hread]
  cases members with
  | nil => rfl
  | cons m members =>
    obtain ⟨nextKey, nextValue⟩ := m
    simp only [writeMembers, List.length_append, List.length_cons] at hlength
    have hnext : readMembers? fuel depth
        (writeString nextKey ++
          ':' :: (nextValue.write ++ (writeMembers members ++ '\x7d' :: rest))) =
          some ((some nextKey, nextValue.reread) :: members.map fun m => (some m.1, m.2.reread),
            rest) :=
      h.members hmembers.1 hmembers.2 hroom
        (by simp only [List.length_append, List.length_cons]; omega)
    rw [writeMembers, List.cons_append, skipSpace_of_lead (by decide), List.append_assoc,
      List.append_assoc, List.cons_append]
    simp only [hnext, Option.bind_some]
    rfl

end Step

/-- The induction on the fuel. -/
theorem readsBack (fuel : Nat) : ReadsBack fuel := by
  induction fuel with
  | zero => exact readsBack_zero
  | succ fuel ih => exact ⟨ih.value_succ, ih.items_succ, ih.members_succ⟩

/-- The text of a value is read, up to its decimals as the value. -/
theorem ofText?_toText {j : Json} (h : j.Writable depthLimit) :
    ofText? j.toText = some j.reread := by
  have hread : readValue? (j.write.length + 1) 0 (j.write ++ []) = some (j.reread, []) :=
    (readsBack _).value h (by omega) (by omega) trivial
  rw [List.append_nil] at hread
  simp only [ofText?, toText, String.toList_ofList, hread]
  rfl

end Worklist.Json
