import Worklist.Json

/-!
# Records, tags and names in JSON

The ways in which structured values are read from JSON.

* A *record* is an object with known member names, or an array of its members in their order.
  Unknown members are skipped and known ones must not repeat.
* A *tagged* value names its case by one member and carries its content in another; the two may
  stand in either order, or as an array of tag and content.  In the array the tag is a string.
* A *name* is the string for one of finitely many values, or an object whose only member has that
  name and nothing in it.

A content that stands before its tag is kept until the tag is known.  It must then be readable as
a whole, and in it an empty object counts as nothing.
-/

namespace Worklist.Wire

/-! ## Plain values -/

def bool? : Json → Option Bool
  | .bool b => some b
  | _ => none

def string? : Json → Option String
  | .string s => some s
  | _ => none

/-- An integer between two bounds. -/
def integer? (low high : Int) : Json → Option Int
  | .integer n => if low ≤ n ∧ n ≤ high then some n else none
  | _ => none

/-- The items of an array, each read in the same way. -/
def list? {α : Type} (item? : Json → Option α) : Json → Option (List α)
  | .array items => items.mapM item?
  | _ => none

/-- A value that may be null. -/
def nullable? {α : Type} (value? : Json → Option α) : Json → Option (Option α)
  | .null => some none
  | j => (value? j).map some

/-- The value of an absent option. -/
def ofOption {α : Type} (write : α → Json) (a : Option α) : Json := (a.map write).getD .null

/-- The array of written items. -/
def ofList {α : Type} (write : α → Json) (as : List α) : Json := .array (as.map write)

/-! ## Records -/

/-- The known members of a record. -/
structure Record where
  /-- The record is an array, in which no member can be left out. -/
  isPositional : Bool
  members : List (String × Json)

namespace Record

/-- Reads a record with given member names. -/
def of? (names : List String) : Json → Option Record
  | .object members =>
    let known := members.filter fun m => names.contains m.1
    if (known.map (·.1)).Nodup then some ⟨false, known⟩ else none
  | .array items => if items.length ≤ names.length then some ⟨true, names.zip items⟩ else none
  | _ => none

/-- Reads a record that has no unknown members. -/
def strict? (names : List String) (j : Json) : Option Record :=
  match j with
  | .object members => if members.all fun m => names.contains m.1 then of? names j else none
  | _ => of? names j

/-- A member that has to be there. -/
def required? {α : Type} (r : Record) (name : String) (read? : Json → Option α) : Option α :=
  (r.members.lookup name).bind read?

/-- A member that may be null, and left out of an object. -/
def optional? {α : Type} (r : Record) (name : String) (read? : Json → Option α) :
    Option (Option α) :=
  match r.members.lookup name with
  | some j => nullable? read? j
  | none => if r.isPositional then none else some none

/-- A member with a default. -/
def orDefault? {α : Type} (r : Record) (name : String) (default : α) (read? : Json → Option α) :
    Option α :=
  match r.members.lookup name with
  | some j => read? j
  | none => some default

end Record

/-! ## Names -/

/-- A type with finitely many values, each with a name. -/
class Named (α : Type) where
  all : List α
  name : α → String

/-- The value with a name. -/
def named? (α : Type) [Named α] (s : String) : Option α :=
  (Named.all (α := α)).find? fun a => Named.name a == s

/-- The text of a name. -/
def nameText? (isKept : Bool) : Json → Option String
  | .string s => some s
  | .object [(s, .null)] => some s
  | .object [(s, .object [])] => if isKept then some s else none
  | _ => none

/-- Reads a value by its name. -/
def ofName? {α : Type} [Named α] (isKept : Bool) (j : Json) : Option α :=
  (nameText? isKept j).bind (named? α)

/-- Writes the name of a value. -/
def toName {α : Type} [Named α] (a : α) : Json := .string (Named.name a)

/-! ## Tagged values -/

/-- A value with a tag. -/
structure Tagged where
  tag : String
  content : Option Json
  /-- The content stood before the tag. -/
  isKept : Bool

namespace Tagged

/-- Reads tag and content under given member names.  The tag is a name in an object and a plain
string in an array. -/
def of? (tagName contentName : String) : Json → Option Tagged
  | .array [tag, content] => (string? tag).map fun tag => ⟨tag, some content, false⟩
  | .object members =>
    let known := members.filter fun m => m.1 == tagName || m.1 == contentName
    match known with
    | [(name, tag)] =>
      if name = tagName then (nameText? false tag).map fun tag => ⟨tag, none, false⟩ else none
    | [(first, a), (second, b)] =>
      if first = tagName ∧ second = contentName then
        (nameText? false a).map fun tag => ⟨tag, some b, false⟩
      else if first = contentName ∧ second = tagName ∧ a.isReadable then
        (nameText? false b).map fun tag => ⟨tag, some a, true⟩
      else none
    | _ => none
  | _ => none

/-- The content of a case that has one. -/
def content? {α : Type} (t : Tagged) (read? : Json → Option α) : Option α := t.content.bind read?

/-- A case without content. -/
def alone? {α : Type} (t : Tagged) (a : α) : Option α :=
  match t.content with
  | none => some a
  | some .null => some a
  | some _ => none

end Tagged

/-- Writes a value with a tag and a content. -/
def tagged (tagName tag contentName : String) (content : Json) : Json :=
  .object [(tagName, .string tag), (contentName, content)]

end Worklist.Wire
