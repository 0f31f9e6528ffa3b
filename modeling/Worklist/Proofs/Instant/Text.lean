import Worklist.Instant.Text
import Worklist.Proofs.Instant.Calendar
import Worklist.Proofs.Outcome

/-!
# Dates that are read back

Reading the text that is written for an instant.  Every number in the text ends in front of a
character that is no digit, so the reader takes exactly the digits that were written, whatever it
would have taken at most.

* `readNumber?_padded`, `readYear?_yearText` and `readFraction?_fractionText` are for the numbers.
* `ofText?_zuluText` says which instant a text denotes.  Only a leap second that is not the last
  of its minute is told as the second behind it.
-/

namespace Worklist.Instant

/-! ## Numbers -/

theorem toList_padded (width n : Nat) :
    (padded width n).toList =
      List.replicate (width - (Nat.toDigits 10 n).length) '0' ++ Nat.toDigits 10 n := by
  rw [padded, String.toList_ofList]

theorem isDigit_of_mem_padded {width n : Nat} {c : Char} (h : c ∈ (padded width n).toList) :
    c.isDigit = true := by
  rw [toList_padded, List.mem_append] at h
  rcases h with h | h
  · rw [List.eq_of_mem_replicate h]
    rfl
  · exact Nat.isDigit_of_mem_toDigits (by decide) (by decide) h

theorem ofDigitChars_padded (width n : Nat) :
    Nat.ofDigitChars 10 (padded width n).toList 0 = n := by
  rw [toList_padded, Nat.ofDigitChars_append, Nat.ofDigitChars_replicate_zero, Nat.mul_zero,
    Nat.ofDigitChars_toDigits (by decide) (by decide)]

theorem length_padded {width n : Nat} (hpos : 0 < width) (h : n < 10 ^ width) :
    (padded width n).toList.length = width := by
  have hle := (Nat.length_toDigits_le_iff (by decide : 1 < 10) hpos).2 h
  rw [toList_padded, List.length_append, List.length_replicate]
  omega

theorem exists_padded_eq (width n : Nat) :
    ∃ c cs, (padded width n).toList = c :: cs ∧ c.isDigit = true := by
  have hne : (padded width n).toList ≠ [] := by
    rw [toList_padded]
    exact List.append_ne_nil_of_right_ne_nil _ Nat.toDigits_ne_nil
  obtain ⟨c, cs, heq⟩ := List.exists_cons_of_ne_nil hne
  exact ⟨c, cs, heq, isDigit_of_mem_padded (heq ▸ List.mem_cons_self)⟩

/-- No digit comes next. -/
def Breaks (cs : List Char) : Prop := ∀ c ∈ cs.head?, c.isDigit = false

theorem breaks_cons {c : Char} (h : c.isDigit = false) (cs : List Char) : Breaks (c :: cs) := by
  intro d hd
  cases hd
  exact h

theorem readDigits_append {ds rest : List Char} (hrest : Breaks rest)
    (hds : ∀ d ∈ ds, d.isDigit = true) {width : Nat} (hwidth : ds.length ≤ width) (n : Nat) :
    readDigits width n (ds ++ rest) = (Nat.ofDigitChars 10 ds n, rest) := by
  induction ds generalizing width n with
  | nil =>
    cases width with
    | zero => rfl
    | succ width =>
      cases rest with
      | nil => rfl
      | cons c cs => simp [readDigits, digit?, hrest c rfl, Nat.ofDigitChars]
  | cons d ds ih =>
    cases width with
    | zero => cases hwidth
    | succ width =>
      rw [List.forall_mem_cons] at hds
      rw [List.cons_append, readDigits, digit?, if_pos hds.1, Nat.ofDigitChars_cons]
      exact ih hds.2 (Nat.le_of_succ_le_succ hwidth) _

theorem readNumber?_padded {width digits n : Nat}
    (hlength : (padded digits n).toList.length ≤ width)
    {rest : List Char} (hrest : Breaks rest) :
    readNumber? width ((padded digits n).toList ++ rest) = some (n, rest) := by
  have hread := readDigits_append hrest (fun _ => isDigit_of_mem_padded) hlength 0
  obtain ⟨c, cs, heq, hc⟩ := exists_padded_eq digits n
  rw [ofDigitChars_padded] at hread
  rw [heq, List.cons_append] at hread ⊢
  rw [readNumber?, if_pos hc, hread]

/-! ## Fields -/

theorem isBlank_of_isDigit {c : Char} (h : c.isDigit = true) : Text.isBlank c = false := by
  have hlow : 48 ≤ c.toNat := by
    simp [Char.isDigit] at h
    exact h.1
  have hhigh : c.toNat ≤ 57 := by
    simp [Char.isDigit] at h
    exact h.2
  simp [Text.isBlank, Text.CharSet.contains, Text.CharSet.whiteSpace, Text.isWithin]
  omega

theorem skipBlanks_cons {c : Char} (h : Text.isBlank c = false) (cs : List Char) :
    Text.skipBlanks (c :: cs) = c :: cs := by
  rw [Text.skipBlanks, List.dropWhile_cons_of_neg (by rw [h]; decide)]

theorem skipBlanks_padded (width n : Nat) (rest : List Char) :
    Text.skipBlanks ((padded width n).toList ++ rest) = (padded width n).toList ++ rest := by
  obtain ⟨c, cs, heq, hc⟩ := exists_padded_eq width n
  rw [heq, List.cons_append, skipBlanks_cons (isBlank_of_isDigit hc)]

theorem readMark?_cons {mark : Char} (h : Text.isBlank mark = false) (rest : List Char) :
    readMark? mark (mark :: rest) = some rest := by
  rw [readMark?, skipBlanks_cons h]
  exact if_pos rfl

theorem readField?_padded {n : Nat} (h : n < 100) {rest : List Char} (hrest : Breaks rest) :
    readField? ((padded 2 n).toList ++ rest) = some (n, rest) := by
  rw [readField?, skipBlanks_padded]
  exact readNumber?_padded (length_padded (by decide) h).le hrest

/-- A year without a sign. -/
theorem readYear?_unsigned {c : Char} (h : c.isDigit = true) (cs : List Char) :
    readYear? (c :: cs) = (readNumber? 4 (c :: cs)).map fun (n, rest) => ((n : Int), rest) := by
  rw [readYear?, skipBlanks_cons (isBlank_of_isDigit h)]
  split
  · next heq =>
    cases heq
    cases h
  · next heq =>
    cases heq
    cases h
  · rfl

/-- A year is read with its sign, which it has if four digits are not enough. -/
theorem readYear?_yearText (year : Int) {rest : List Char} (hrest : Breaks rest) :
    readYear? ((yearText year).toList ++ rest) = some (year, rest) := by
  have hsigned : readNumber? ((padded 4 year.natAbs).toList ++ rest).length
      ((padded 4 year.natAbs).toList ++ rest) = some (year.natAbs, rest) :=
    readNumber?_padded (by rw [List.length_append]; omega) hrest
  rw [yearText]
  split
  · next hyear =>
    simp at hyear
    have hread : readNumber? 4 ((padded 4 year.toNat).toList ++ rest) = some (year.toNat, rest) :=
      readNumber?_padded (length_padded (by decide) (by omega)).le hrest
    obtain ⟨c, cs, heq, hc⟩ := exists_padded_eq 4 year.toNat
    rw [heq, List.cons_append] at hread ⊢
    simp only [readYear?_unsigned hc, hread, Option.map_some, Int.toNat_of_nonneg hyear.1]
  · split
    · next hneg =>
      have hminus : ("-" : String).toList = ['-'] := rfl
      rw [String.toList_append, hminus, List.singleton_append, List.cons_append, readYear?,
        skipBlanks_cons (by decide)]
      have hback : -(year.natAbs : Int) = year := by omega
      simp only [hsigned, Option.map_some, hback]
    · next hyear hneg =>
      have hplus : ("+" : String).toList = ['+'] := rfl
      have hback : (year.natAbs : Int) = year := by omega
      rw [String.toList_append, hplus, List.singleton_append, List.cons_append, readYear?,
        skipBlanks_cons (by decide)]
      simp only [hsigned, Option.map_some, hback]

/-! ## Fractions -/

theorem readFraction?_padded {width n : Nat} (hpos : 0 < width) (hwidth : width ≤ 9)
    (h : n < 10 ^ width) {rest : List Char} (hrest : Breaks rest) :
    readFraction? (("." ++ padded width n).toList ++ rest) =
      some (n * tenPow (9 - width), rest) := by
  have hpoint : ("." : String).toList = ['.'] := rfl
  have hlength := length_padded hpos h
  have hdrop : rest.dropWhile Char.isDigit = rest := by
    cases rest with
    | nil => rfl
    | cons c cs => rw [List.dropWhile_cons_of_neg (by rw [hrest c rfl]; decide)]
  rw [String.toList_append, hpoint, List.singleton_append, List.cons_append, readFraction?,
    readNumber?_padded (hlength.trans_le hwidth) hrest, Option.map_some]
  simp only [List.length_append, hlength, Nat.add_sub_cancel, hdrop]

/-- The digits that are left out of a fraction are zeros. -/
theorem readFraction?_fractionText {nanos : Nat} (h : nanos < 1000000000) (rest : List Char) :
    readFraction? ((fractionText nanos).toList ++ 'Z' :: rest) = some (nanos, 'Z' :: rest) := by
  have hrest : Breaks ('Z' :: rest) := breaks_cons (by decide) rest
  have hmillis : tenPow (9 - 3) = 1000000 := rfl
  have hmicros : tenPow (9 - 6) = 1000 := rfl
  have hnanos : tenPow (9 - 9) = 1 := rfl
  rw [fractionText]
  split
  · next hzero =>
    rw [hzero]
    rfl
  · split
    · have hback : nanos / 1000000 * 1000000 = nanos := by omega
      rw [readFraction?_padded (by decide) (by decide) (by omega) hrest, hmillis, hback]
    · split
      · have hback : nanos / 1000 * 1000 = nanos := by omega
        rw [readFraction?_padded (by decide) (by decide) (by omega) hrest, hmicros, hback]
      · rw [readFraction?_padded (by decide) (by decide) h hrest, hnanos, Nat.mul_one]

theorem breaks_fractionText (nanos : Nat) (rest : List Char) :
    Breaks ((fractionText nanos).toList ++ 'Z' :: rest) := by
  have hpoint (s : String) : Breaks (("." ++ s).toList ++ 'Z' :: rest) := by
    rw [String.toList_append]
    exact breaks_cons (by decide) _
  rw [fractionText]
  split
  · exact breaks_cons (by decide) rest
  · split
    · exact hpoint _
    · split
      · exact hpoint _
      · exact hpoint _

/-! ## Instants -/

/-- An instant that exists: its year is supported, and its nanoseconds stay within two seconds, of
which the second one is a leap second. -/
structure IsValid (t : Instant) : Prop where
  year : CalendarDate.isYearInRange (CalendarDate.ofDays (t.seconds / 86400)).year = true
  nanos : t.nanos < 2000000000

/-- The instant that the text of an instant denotes.  A leap second that is not the last of its
minute is told as the second behind it. -/
def reread (t : Instant) : Instant :=
  if 1000000000 ≤ t.nanos ∧ t.seconds % 60 ≠ 59 then ⟨t.seconds + 1, t.nanos - 1000000000⟩ else t

theorem toList_zuluText (t : Instant) :
    let date := CalendarDate.ofDays (t.seconds / 86400)
    let ofDay := (t.seconds % 86400).toNat
    t.zuluText.toList =
      (yearText date.year).toList ++ '-' :: ((padded 2 date.month).toList ++ '-' ::
        ((padded 2 date.day).toList ++ 'T' :: ((padded 2 (ofDay / 3600)).toList ++ ':' ::
          ((padded 2 (ofDay / 60 % 60)).toList ++ ':' ::
            ((padded 2 (ofDay % 60 + t.nanos / 1000000000)).toList ++
              ((fractionText (t.nanos % 1000000000)).toList ++ ['Z'])))))) := by
  simp [zuluText, plainText]

/-- A text is read field by field. -/
theorem ofText?_of_fields {s : String} {year offset : Int}
    {month day hour minute second nanos : Nat}
    {cs₁ cs₂ cs₃ cs₄ cs₅ cs₆ cs₇ cs₈ cs₉ cs₁₀ cs₁₁ cs₁₂ cs₁₃ : List Char}
    (hyear : readYear? s.toList = some (year, cs₁)) (h₁ : readMark? '-' cs₁ = some cs₂)
    (hmonth : readField? cs₂ = some (month, cs₃)) (h₃ : readMark? '-' cs₃ = some cs₄)
    (hday : readField? cs₄ = some (day, cs₅)) (h₅ : readSeparator? cs₅ = some cs₆)
    (hhour : readField? cs₆ = some (hour, cs₇)) (h₇ : readMark? ':' cs₇ = some cs₈)
    (hminute : readField? cs₈ = some (minute, cs₉)) (h₉ : readMark? ':' cs₉ = some cs₁₀)
    (hsecond : readField? cs₁₀ = some (second, cs₁₁))
    (hnanos : readFraction? cs₁₁ = some (nanos, cs₁₂))
    (hoffset : readZone? (Text.skipBlanks cs₁₂) = some (offset, cs₁₃))
    (hend : Text.skipBlanks cs₁₃ = []) :
    ofText? s = ofLocal? ⟨year, month, day⟩ hour minute second nanos offset := by
  simp only [ofText?, hyear, h₁, hmonth, h₃, hday, h₅, hhour, h₇, hminute, h₉, hsecond, hnanos,
    hoffset, hend, some_bind, List.isEmpty_nil, if_true]

theorem ofText?_zuluText_eq {t : Instant} (h : t.nanos < 2000000000) :
    ofText? t.zuluText =
      ofLocal? (CalendarDate.ofDays (t.seconds / 86400)) ((t.seconds % 86400).toNat / 3600)
        ((t.seconds % 86400).toNat / 60 % 60)
        ((t.seconds % 86400).toNat % 60 + t.nanos / 1000000000) (t.nanos % 1000000000) 0 := by
  obtain ⟨hmonth, hday⟩ := CalendarDate.ofDays_lt_hundred (t.seconds / 86400)
  have hdash (cs : List Char) : Breaks ('-' :: cs) := breaks_cons (by decide) cs
  have hcolon (cs : List Char) : Breaks (':' :: cs) := breaks_cons (by decide) cs
  have htime (cs : List Char) : Breaks ('T' :: cs) := breaks_cons (by decide) cs
  exact ofText?_of_fields
    (by rw [toList_zuluText]; exact readYear?_yearText _ (hdash _)) (readMark?_cons (by decide) _)
    (readField?_padded hmonth (hdash _)) (readMark?_cons (by decide) _)
    (readField?_padded hday (htime _)) rfl
    (readField?_padded (by omega) (hcolon _)) (readMark?_cons (by decide) _)
    (readField?_padded (by omega) (hcolon _)) (readMark?_cons (by decide) _)
    (readField?_padded (by omega) (breaks_fractionText (t.nanos % 1000000000) []))
    (readFraction?_fractionText (Nat.mod_lt _ (by decide)) []) rfl rfl

/-- The fields of the text add up to the instant that it denotes, which is on the same day. -/
theorem reread_fields {t : Instant} (h : t.nanos < 2000000000) :
    let ofDay := (t.seconds % 86400).toNat
    let second := ofDay % 60 + t.nanos / 1000000000
    t.seconds / 86400 * 86400 + (ofDay / 3600 * 3600 + ofDay / 60 % 60 * 60 + min second 59 : Nat) =
        t.reread.seconds ∧
      t.nanos % 1000000000 + (if second = 60 then 1000000000 else 0) = t.reread.nanos ∧
      t.reread.seconds / 86400 = t.seconds / 86400 := by
  intro ofDay second
  by_cases hleap : 1000000000 ≤ t.nanos ∧ t.seconds % 60 ≠ 59
  · have hsecond : second = ofDay % 60 + 1 := by omega
    rw [reread, if_pos hleap, if_neg (by omega)]
    refine ⟨?_, ?_, ?_⟩ <;> dsimp only <;> omega
  · rw [reread, if_neg hleap]
    by_cases hnanos : t.nanos < 1000000000
    · rw [if_neg (by omega)]
      refine ⟨?_, ?_, ?_⟩ <;> omega
    · rw [if_pos (by omega)]
      refine ⟨?_, ?_, ?_⟩ <;> omega

/-- Every instant that exists has a text that denotes one. -/
theorem ofText?_zuluText {t : Instant} (h : t.IsValid) : ofText? t.zuluText = some t.reread := by
  obtain ⟨hyear, hnanos⟩ := h
  have hvalid := CalendarDate.isValid_ofDays (t.seconds / 86400)
  obtain ⟨hseconds, hnanoseconds, hday⟩ := reread_fields hnanos
  rw [hyear] at hvalid
  rw [ofText?_zuluText_eq hnanos, ofLocal?, CalendarDate.toDays_ofDays, hvalid,
    if_pos (by simp; omega)]
  simp only [hseconds, hnanoseconds, Int.sub_zero, hday, hyear, if_true]

/-- The text of an instant leads back to it, unless it tells a leap second within a minute. -/
theorem reread_eq_self {t : Instant} (h : t.nanos < 1000000000 ∨ t.seconds % 60 = 59) :
    t.reread = t := by
  rw [reread, if_neg]
  omega

end Worklist.Instant
