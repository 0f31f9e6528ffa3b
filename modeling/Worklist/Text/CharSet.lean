/-!
# Sets of characters

A set of characters given by its closed ranges of code points in ascending order, with the set of
blank characters.
-/

namespace Worklist.Text

/-- Characters given by the first and last code point of each range, in ascending order. -/
structure CharSet where
  ranges : List (Nat × Nat)

/-- Whether a code point lies in one of some ascending ranges.  A range that starts beyond the code
point ends the search. -/
def isWithin (n : Nat) : List (Nat × Nat) → Bool
  | [] => false
  | (first, last) :: rest => first ≤ n && (n ≤ last || isWithin n rest)

namespace CharSet

def contains (s : CharSet) (c : Char) : Bool := isWithin c.toNat s.ranges

/-- The characters with the Unicode property White_Space. -/
def whiteSpace : CharSet :=
  ⟨[(0x9, 0xD), (0x20, 0x20), (0x85, 0x85), (0xA0, 0xA0), (0x1680, 0x1680), (0x2000, 0x200A),
    (0x2028, 0x2029), (0x202F, 0x202F), (0x205F, 0x205F), (0x3000, 0x3000)]⟩

end CharSet

/-- A character that only separates words. -/
def isBlank (c : Char) : Bool := CharSet.whiteSpace.contains c

/-- A text without its leading blanks. -/
def skipBlanks (cs : List Char) : List Char := cs.dropWhile isBlank

/-- A text in which nothing is left once blanks are removed. -/
def isBlankText (s : String) : Bool := s.toList.all isBlank

end Worklist.Text
