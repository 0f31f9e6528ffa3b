import Worklist.Proofs.Json.RoundTrip
import Worklist.Proofs.Outcome
import Worklist.Wire.Record

/-!
# Values that survive the wire

A value survives when its JSON form can be written and read back as JSON, and is read as the value
again.  The lemmas here put that together for structured values from their parts.

* `Survives` is the notion for JSON values, and `RoundTrips` what follows for texts.
* `survives_list`, `survives_option` and `survives_name` are for lists, options and names;
  `of?_object` and `of?_tagged` say how records and tags are read.
-/

namespace Worklist

namespace Wire

variable {α : Type} {write : α → Json} {read? : Json → Option α} {room : Nat} {a : α}

/-- A value is read back from its JSON form, which has no more than `room` levels of containers and
nothing in it that a text could not give back. -/
structure Survives (write : α → Json) (read? : Json → Option α) (room : Nat) (a : α) : Prop where
  fits : (write a).Fits room
  read : read? (write a) = some a

/-- A value is read back from the text that it is written as. -/
def RoundTrips (write : α → Json) (read? : Json → Option α) (a : α) : Prop :=
  (Json.ofText? (write a).toText).bind read? = some a

theorem Survives.roundTrips (h : Survives write read? Json.depthLimit a) :
    RoundTrips write read? a := by
  rw [RoundTrips, Json.ofText?_toText h.fits.1, h.fits.2, Option.bind_some, h.read]

/-! ## Plain values, lists and options -/

theorem survives_string (s : String) : Survives .string string? room s :=
  ⟨Json.fits_string room s, rfl⟩

theorem survives_list {as : List α} (h : ∀ a ∈ as, Survives write read? room a) :
    Survives (ofList write) (list? read?) (room + 1) as where
  fits := by
    rw [ofList, Json.fits_array, List.forall_mem_map]
    exact fun a ha => (h a ha).fits
  read := mapM_map_eq_some fun a ha => (h a ha).read

theorem survives_texts (ss : List String) :
    Survives (ofList .string) (list? string?) (room + 1) ss :=
  survives_list fun s _ => survives_string s

/-- An option survives if its value does and is not written as null. -/
theorem survives_option {o : Option α} (h : ∀ a ∈ o, Survives write read? room a)
    (hnull : ∀ a, write a ≠ .null) : Survives (ofOption write) (nullable? read?) room o := by
  cases o with
  | none => exact ⟨Json.fits_null room, rfl⟩
  | some a =>
    obtain ⟨hfits, hread⟩ := h a rfl
    refine ⟨hfits, ?_⟩
    change nullable? read? (write a) = some (some a)
    rw [nullable?, hread]
    · rfl
    · exact hnull a

/-! ## Names -/

/-- A name leads back to its value. -/
def IsNamed (a : α) [Named α] : Prop := named? α (Named.name a) = some a

@[simp] theorem fits_toName [Named α] (a : α) (room : Nat) : (toName a).Fits room :=
  Json.fits_string room _

theorem survives_name [Named α] (h : IsNamed a) (isKept : Bool) :
    Survives toName (ofName? isKept) room a := ⟨fits_toName a room, h⟩

/-! ## Records and tags -/

/-- An object with the members of a record, in whatever order. -/
theorem of?_object (names : List String) (members : List (String × Json))
    (hknown : ∀ m ∈ members, m.1 ∈ names) (hnodup : (members.map (·.1)).Nodup) :
    Record.of? names (.object members) = some ⟨false, members⟩ := by
  have hall : (members.filter fun m => names.contains m.1) = members :=
    List.filter_eq_self.2 fun m hm => List.contains_iff_mem.2 (hknown m hm)
  simp only [Record.of?, hall, if_pos hnodup]

/-- A tag in front of its content. -/
theorem of?_tagged (tagName tag contentName : String) (content : Json) :
    Tagged.of? tagName contentName (tagged tagName tag contentName content) =
      some ⟨tag, some content, false⟩ := by
  simp [Tagged.of?, tagged, nameText?]

/-- A tag without content. -/
theorem of?_tag (tagName contentName tag : String) :
    Tagged.of? tagName contentName (.object [(tagName, .string tag)]) =
      some ⟨tag, none, false⟩ := by
  simp [Tagged.of?, nameText?]

theorem fits_tagged {tagName tag contentName : String} {content : Json} (h : content.Fits room) :
    (tagged tagName tag contentName content).Fits (room + 1) := by
  rw [tagged, Json.fits_object]
  simpa using h

end Wire

end Worklist
