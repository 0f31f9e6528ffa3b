import Worklist.Json.Reader
import Worklist.Json.Writer
import Worklist.Proofs.Outcome

/-!
# Strings and numbers that are read back

What the writer makes of a string or an integer, the reader gives back.  A decimal it may give back
as another one, since it rounds more than once.

* Strings.  `readUnits?_escaped` is one character, escaped or not, and `readUnits?_flatMap` a whole
  string up to its closing quotation mark.  No character of a string is half of a surrogate pair, so
  `joinHalves?_toNat` joins none.
* Integers.  `spanDigits_append` reads digits up to a character that is none, `takeIntegral_digitValues`
  adds them up as long as they fit in 64 bits, and `readNumber?_writeInteger` puts the sign in front.
* Decimals.  `exists_writeDecimal_eq` is the form of their texts, and `readNumber?_writeDecimal` says
  that the reader takes all of the text.
-/

namespace Worklist.Json

/-! ## Strings -/

/-- The escape of a control character has the code point of the character. -/
theorem hexUnit?_fourHex {n : Nat} (hn : n < 32) :
    ∃ a b c d, fourHex n = [a, b, c, d] ∧ hexUnit? a b c d = some n := by
  refine ⟨_, _, _, _, rfl, ?_⟩
  revert n
  decide

/-- A character that needs no escape. -/
theorem readUnits?_plain {c : Char} (hquote : c ≠ '"') (hbackslash : c ≠ '\\')
    (hcontrol : ¬c.toNat < 32) (cs : List Char) :
    readUnits? (c :: cs) = (readUnits? cs).map fun (units, rest) => (c.toNat :: units, rest) := by
  rw [readUnits?, if_neg (not_or.2 ⟨hcontrol, hbackslash⟩)]
  · cases readUnits? cs <;> rfl
  · exact hquote
  · exact fun _ _ _ _ _ h _ => hbackslash h
  · exact fun _ _ h _ => hbackslash h

/-- An escape of one letter. -/
theorem readUnits?_short {e c : Char} (hu : e ≠ 'u') (h : shortEscape? e = some c)
    (cs : List Char) :
    readUnits? ('\\' :: e :: cs) =
      (readUnits? cs).map fun (units, rest) => (c.toNat :: units, rest) := by
  rw [readUnits?, h]
  · cases readUnits? cs <;> rfl
  · exact fun _ _ _ _ _ he _ => hu he

/-- One character of a string. -/
theorem readUnits?_escaped (c : Char) (cs : List Char) :
    readUnits? (escaped c ++ cs) =
      (readUnits? cs).map fun (units, rest) => (c.toNat :: units, rest) := by
  unfold escaped
  split
  case h_8 hquote hbackslash _ _ _ _ _ =>
    split
    · rename_i hcontrol
      obtain ⟨x₁, x₂, x₃, x₄, hhex, hunit⟩ := hexUnit?_fourHex hcontrol
      rw [hhex]
      simp only [List.cons_append, List.nil_append, readUnits?, hunit]
      cases readUnits? cs <;> rfl
    · rename_i hcontrol
      exact readUnits?_plain hquote hbackslash hcontrol cs
  all_goals exact readUnits?_short (by decide) rfl cs

/-- The characters of a string up to its closing quotation mark. -/
theorem readUnits?_flatMap (cs rest : List Char) :
    readUnits? (cs.flatMap escaped ++ '"' :: rest) = some (cs.map Char.toNat, rest) := by
  induction cs with
  | nil => rfl
  | cons c cs ih =>
    rw [List.flatMap_cons, List.append_assoc, readUnits?_escaped, ih]
    rfl

/-- No character is half of a surrogate pair. -/
theorem not_half (c : Char) : isHighHalf c.toNat = false ∧ isLowHalf c.toNat = false := by
  have hvalid : c.toNat < 0xD800 ∨ 0xDFFF < c.toNat ∧ c.toNat < 0x110000 := c.valid
  constructor
  · rw [isHighHalf, Bool.and_eq_false_iff, decide_eq_false_iff_not, decide_eq_false_iff_not]
    omega
  · rw [isLowHalf, Bool.and_eq_false_iff, decide_eq_false_iff_not, decide_eq_false_iff_not]
    omega

theorem joinHalves?_toNat (cs : List Char) : joinHalves? (cs.map Char.toNat) = some cs := by
  induction cs with
  | nil => rfl
  | cons c cs ih =>
    obtain ⟨hhigh, hlow⟩ := not_half c
    rw [List.map_cons, joinHalves?.eq_def]
    simp only [hhigh, hlow, ih, Bool.false_eq_true, if_false, Option.map_some, Char.ofNat_toNat]

theorem readString?_write (s : String) (rest : List Char) :
    readString? (s.toList.flatMap escaped ++ '"' :: rest) = some (some s, rest) := by
  rw [readString?, readUnits?_flatMap, Option.map_some]
  simp only [joinHalves?_toNat, Option.map_some, String.ofList_toList]

/-! ## Integers -/

/-- The text goes on with a character that no number contains, or ends. -/
def Delimited : List Char → Prop
  | [] => True
  | c :: _ => c = ',' ∨ c = ']' ∨ c = '\x7d'

theorem spanDigits_of_delimited {rest : List Char} (h : Delimited rest) :
    spanDigits rest = ([], rest) := by
  cases rest with
  | nil => rfl
  | cons c cs =>
    rw [spanDigits, if_neg]
    rcases h with rfl | rfl | rfl <;> decide

/-- The values of digits. -/
def digitsOf (ds : List Char) : List Nat := ds.map fun d => d.toNat - '0'.toNat

/-- Digits up to a character that is none. -/
theorem spanDigits_append {ds rest : List Char} (hds : ∀ d ∈ ds, d.isDigit = true)
    (h : spanDigits rest = ([], rest)) : spanDigits (ds ++ rest) = (digitsOf ds, rest) := by
  induction ds with
  | nil => exact h
  | cons d ds ih =>
    rw [List.forall_mem_cons] at hds
    rw [List.cons_append, spanDigits, if_pos hds.1, ih hds.2]
    rfl

/-- No fraction and no exponent. -/
theorem readFraction?_of_delimited {rest : List Char} (h : Delimited rest) :
    readFraction? rest = some (none, rest) := by
  rw [readFraction?.eq_def]
  split
  · rcases h with h | h | h <;> cases h
  · rfl

theorem readExponent?_of_delimited {rest : List Char} (h : Delimited rest) :
    readExponent? rest = some (none, rest) := by
  rw [readExponent?.eq_def]
  split
  · rcases h with h | h | h <;> cases h
  · rcases h with h | h | h <;> cases h
  · rfl

/-- Digits that can stand in front of the point: only a single one can be a zero in front. -/
def IsIntegral (ds : List Char) : Prop :=
  (∀ d ∈ ds, d.isDigit = true) ∧ ds ≠ [] ∧ ∀ rest, digitsOf ds = 0 :: rest → rest = []

theorem IsIntegral.exists_cons {ds : List Char} (h : IsIntegral ds) :
    ∃ c cs, ds = c :: cs ∧ c.isDigit = true := by
  obtain ⟨c, cs, heq⟩ := List.exists_cons_of_ne_nil h.2.1
  exact ⟨c, cs, heq, h.1 c (heq ▸ List.mem_cons_self)⟩

/-- A number without sign does not start with one. -/
theorem readNumber?_of_integral {ds : List Char} (hds : IsIntegral ds) (rest : List Char) :
    readNumber? (ds ++ rest) = readUnsigned? false (ds ++ rest) := by
  obtain ⟨c, cs, heq, hc⟩ := hds.exists_cons
  rw [readNumber?]
  intro cs hminus
  rw [heq, List.cons_append, List.cons.injEq] at hminus
  rw [hminus.1] at hc
  cases hc

/-- A number without sign, from what is read behind its integral part. -/
theorem readUnsigned?_of_integral {ds : List Char} (hds : IsIntegral ds) (isNegative : Bool)
    {rest rest' rest'' : List Char} {fraction : Option (List Nat)} {exponent : Option Int}
    (hspan : spanDigits rest = ([], rest)) (hfraction : readFraction? rest = some (fraction, rest'))
    (hexponent : readExponent? rest' = some (exponent, rest'')) :
    readUnsigned? isNegative (ds ++ rest) =
      some (NumberLiteral.value ⟨isNegative, digitsOf ds, fraction, exponent⟩, rest'') := by
  obtain ⟨hdigits, hne, hzero⟩ := hds
  simp only [readUnsigned?, spanDigits_append hdigits hspan]
  split
  · next hnil => exact absurd (List.map_eq_nil_iff.1 hnil) hne
  · next hdouble => cases hzero _ hdouble
  · simp only [hfraction, hexponent, some_bind, Option.pure_def]

theorem takeIntegral_append (s : Scaled) (xs ys : List Nat) :
    takeIntegral s (xs ++ ys) = takeIntegral (takeIntegral s xs) ys := by
  induction xs generalizing s with
  | nil => rfl
  | cons x xs ih =>
    rw [List.cons_append, takeIntegral, takeIntegral]
    split
    · exact ih _
    · exact ih _

/-- The digits of a number as numbers. -/
def digitValues (n : Nat) : List Nat := digitsOf (Nat.toDigits 10 n)

theorem digitValues_of_lt {n : Nat} (h : n < 10) : digitValues n = [n] := by
  rw [digitValues, Nat.toDigits_of_lt_base h, digitsOf, List.map_singleton]
  exact congrArg (fun d => [d]) (Nat.toNat_digitChar_sub_48_of_lt_ten h)

theorem digitValues_of_ge {n : Nat} (h : 10 ≤ n) :
    digitValues n = digitValues (n / 10) ++ [n % 10] := by
  have hlast := Nat.toNat_digitChar_sub_48_of_lt_ten (Nat.mod_lt n (show 0 < 10 by decide))
  rw [digitValues, Nat.toDigits_of_base_le (by decide) h, digitsOf, List.map_append,
    List.map_singleton]
  exact congrArg (fun d => digitValues (n / 10) ++ [d]) hlast

/-- The digits of a number that fits in 64 bits add up to it. -/
theorem takeIntegral_digitValues {n : Nat} (h : n < wordLimit) :
    takeIntegral ⟨0, 0⟩ (digitValues n) = ⟨n, 0⟩ := by
  induction n using Nat.strongRecOn with
  | ind n ih =>
    rcases Nat.lt_or_ge n 10 with hlt | hge
    · rw [digitValues_of_lt hlt, takeIntegral, if_pos ⟨rfl, by simpa using h⟩, takeIntegral,
        Nat.mul_zero, Nat.zero_add]
    · have hback : 10 * (n / 10) + n % 10 = n := Nat.div_add_mod n 10
      rw [digitValues_of_ge hge, takeIntegral_append, ih (n / 10) (by omega) (by omega),
        takeIntegral, hback, if_pos ⟨rfl, h⟩, takeIntegral]

theorem ofDigits_digitValues (n : Nat) : ofDigits (digitValues n) = n := by
  induction n using Nat.strongRecOn with
  | ind n ih =>
    rcases Nat.lt_or_ge n 10 with hlt | hge
    · rw [digitValues_of_lt hlt, ofDigits, List.foldl_cons, List.foldl_nil, Nat.mul_zero,
        Nat.zero_add]
    · have hfront : ofDigits (digitValues (n / 10)) = n / 10 := ih (n / 10) (by omega)
      rw [ofDigits] at hfront
      rw [digitValues_of_ge hge, ofDigits, List.foldl_append, hfront, List.foldl_cons,
        List.foldl_nil, Nat.div_add_mod]

/-- A number does not start with a zero unless it is zero. -/
theorem head_digitValues {n : Nat} (h : 0 < n) : ∃ d ds, digitValues n = d :: ds ∧ d ≠ 0 := by
  induction n using Nat.strongRecOn with
  | ind n ih =>
    rcases Nat.lt_or_ge n 10 with hlt | hge
    · exact ⟨n, [], digitValues_of_lt hlt, Nat.ne_of_gt h⟩
    · obtain ⟨d, ds, heq, hd⟩ := ih (n / 10) (by omega) (by omega)
      refine ⟨d, ds ++ [n % 10], ?_, hd⟩
      rw [digitValues_of_ge hge, heq, List.cons_append]

/-- The digits of a number can stand in front of the point. -/
theorem isIntegral_toDigits (n : Nat) : IsIntegral (Nat.toDigits 10 n) := by
  refine ⟨fun d hd => Nat.isDigit_of_mem_toDigits (by decide) (by decide) hd,
    Nat.toDigits_ne_nil, fun rest hrest => ?_⟩
  rcases Nat.eq_zero_or_pos n with rfl | hpos
  · cases hrest
    rfl
  · obtain ⟨d, ds, heq, hd⟩ := head_digitValues hpos
    exact absurd (List.cons.inj (heq.symm.trans hrest)).1 hd

/-- A number without sign, up to a character that no number contains. -/
theorem readUnsigned?_toDigits (isNegative : Bool) (n : Nat) {rest : List Char}
    (h : Delimited rest) :
    readUnsigned? isNegative (Nat.toDigits 10 n ++ rest) =
      some (NumberLiteral.value ⟨isNegative, digitValues n, none, none⟩, rest) :=
  readUnsigned?_of_integral (isIntegral_toDigits n) isNegative (spanDigits_of_delimited h)
    (readFraction?_of_delimited h) (readExponent?_of_delimited h)

/-- An integer that can be written as one: it fits in 64 bits, with a sign if it is negative. -/
def IsWord (n : Int) : Prop := -(wordLimit / 2 : Nat) ≤ n ∧ n < wordLimit

theorem readNumber?_writeInteger {n : Int} (hn : IsWord n) {rest : List Char} (h : Delimited rest) :
    readNumber? (writeInteger n ++ rest) = some (integer n, rest) := by
  obtain ⟨hlow, hhigh⟩ := hn
  have hlimit : wordLimit = 18446744073709551616 := rfl
  have hwhole := takeIntegral_digitValues (n := n.natAbs) (by omega)
  rw [writeInteger]
  split
  · rename_i hneg
    have hsmall : ¬(n.natAbs = 0 ∨ wordLimit / 2 < n.natAbs) := by omega
    have hvalue : -(n.natAbs : Int) = n := by omega
    rw [List.cons_append, readNumber?, readUnsigned?_toDigits true _ h, NumberLiteral.value]
    simp only [hwhole, ne_eq, not_true_eq_false, if_false, if_true, if_neg hsmall, hvalue]
  · rename_i hneg
    have hvalue : (n.natAbs : Int) = n := by omega
    rw [readNumber?_of_integral (isIntegral_toDigits _), readUnsigned?_toDigits false _ h,
      NumberLiteral.value]
    simp only [hwhole, ne_eq, not_true_eq_false, if_false, Bool.false_eq_true, hvalue]

/-! ## Decimals -/

/-- Cutting off digits behind leaves what can stand in front of the point. -/
theorem IsIntegral.take {ds : List Char} (h : IsIntegral ds) (k : Nat) :
    IsIntegral (ds.take (k + 1)) := by
  obtain ⟨hdigits, hne, hzero⟩ := h
  obtain ⟨d, ds, rfl⟩ := List.exists_cons_of_ne_nil hne
  refine ⟨fun c hc => hdigits c (List.mem_of_mem_take hc), List.cons_ne_nil _ _,
    fun rest hrest => ?_⟩
  obtain ⟨hd, hrest⟩ := List.cons.inj hrest
  have htail : digitsOf ds = [] := hzero _ (congrArg (· :: digitsOf ds) hd)
  rw [digitsOf, List.map_eq_nil_iff] at htail
  rw [← hrest, htail, List.take_nil]
  rfl

/-- The text of a number that is no integer: an integral part, a point and more digits. -/
theorem exists_positional_eq (digits : Nat) {exponent : Int} (h : exponent < 0) :
    ∃ ds fs, Binary64.positional digits exponent = ds ++ '.' :: fs ∧ IsIntegral ds ∧ fs ≠ [] ∧
      ∀ f ∈ fs, f.isDigit = true := by
  have hraw : IsIntegral (Nat.toDigits 10 digits) := isIntegral_toDigits digits
  have hpositive : 0 < (Nat.toDigits 10 digits).length := List.length_pos_iff.2 hraw.2.1
  have hplaces : 0 < (-exponent).toNat := by omega
  rw [Binary64.positional, if_neg (by omega), Binary64.digitsOf]
  generalize (-exponent).toNat = places at *
  generalize Nat.toDigits 10 digits = raw at *
  dsimp only
  refine ⟨_, _, rfl, ?_, ?_, ?_⟩
  · by_cases hlong : places < raw.length
    · have hnone : places + 1 - raw.length = 0 := by omega
      obtain ⟨k, hk⟩ := Nat.exists_eq_add_one.2 (Nat.sub_pos_of_lt hlong)
      rw [hnone, List.replicate_zero, List.nil_append, hk]
      exact hraw.take k
    · -- the padding leaves a single zero in front of the point
      obtain ⟨k, hk⟩ : ∃ k, places + 1 - raw.length = k + 1 := ⟨places - raw.length, by omega⟩
      have hone : (List.replicate (places + 1 - raw.length) '0' ++ raw).length - places = 1 := by
        rw [List.length_append, List.length_replicate]
        omega
      rw [hone, hk, List.replicate_succ, List.cons_append, List.take_succ_cons, List.take_zero]
      exact isIntegral_toDigits 0
  · rw [Ne, List.drop_eq_nil_iff, List.length_append, List.length_replicate]
    omega
  · intro f hf
    rcases List.mem_append.1 (List.mem_of_mem_drop hf) with hf | hf
    · rw [List.eq_of_mem_replicate hf]
      rfl
    · exact hraw.1 f hf

/-- What can stand behind the digits of a decimal: an exponent, or nothing. -/
def IsExponent (tail : List Char) (exponent : Option Int) : Prop :=
  ∀ rest, Delimited rest → spanDigits (tail ++ rest) = ([], tail ++ rest) ∧
    readFraction? (tail ++ rest) = some (none, tail ++ rest) ∧
    readExponent? (tail ++ rest) = some (exponent, rest)

theorem isExponent_nil : IsExponent [] none := fun _ h =>
  ⟨spanDigits_of_delimited h, readFraction?_of_delimited h, readExponent?_of_delimited h⟩

theorem readExponentDigits?_toDigits (sign : Int) (n : Nat) {rest : List Char}
    (h : Delimited rest) :
    readExponentDigits? sign (Nat.toDigits 10 n ++ rest) = some (some (sign * n), rest) := by
  obtain ⟨hdigits, hne, -⟩ := isIntegral_toDigits n
  rw [readExponentDigits?, spanDigits_append hdigits (spanDigits_of_delimited h)]
  split
  · next hnil =>
    have hvalues : digitsOf (Nat.toDigits 10 n) = [] := congrArg Prod.fst hnil
    exact absurd (List.map_eq_nil_iff.1 hvalues) hne
  · next heq =>
    cases heq
    rw [← digitValues, ofDigits_digitValues]

/-- An exponent has no sign unless it is negative. -/
theorem readExponentTail?_writeInteger (n : Int) {rest : List Char} (h : Delimited rest) :
    readExponentTail? (writeInteger n ++ rest) = some (some n, rest) := by
  rw [writeInteger]
  split
  · have hvalue : -1 * (n.natAbs : Int) = n := by omega
    rw [List.cons_append, readExponentTail?, readExponentDigits?_toDigits _ _ h, hvalue]
  · have hvalue : 1 * (n.natAbs : Int) = n := by omega
    have hread := readExponentDigits?_toDigits 1 n.natAbs h
    obtain ⟨c, cs, heq, hc⟩ := (isIntegral_toDigits n.natAbs).exists_cons
    rw [hvalue, heq, List.cons_append] at hread
    rw [heq, List.cons_append, readExponentTail?, hread]
    all_goals
      intro _ hcons
      cases hcons
      cases hc

theorem isExponent_writeInteger (n : Int) : IsExponent ('e' :: writeInteger n) (some n) :=
  fun _ h => ⟨rfl, rfl, readExponentTail?_writeInteger n h⟩

/-- The text of a finite decimal: a sign, an integral part, a fraction and an exponent. -/
theorem exists_writeDecimal_eq {x : Binary64} (h : x.isFinite = true) :
    ∃ ds fs tail exponent, IsIntegral ds ∧ (∀ f ∈ fs, f.isDigit = true) ∧
      IsExponent tail exponent ∧
        writeDecimal x =
          (if x.isNegative then ['-'] else []) ++ (ds ++ (writeFraction fs ++ tail)) := by
  rw [writeDecimal, if_pos h]
  dsimp only
  split
  · rcases Int.lt_or_le x.shortest.2 0 with hexponent | hexponent
    · obtain ⟨ds, fs, heq, hds, hne, hfs⟩ := exists_positional_eq x.shortest.1 hexponent
      obtain ⟨f, gs, rfl⟩ := List.exists_cons_of_ne_nil hne
      refine ⟨ds, f :: gs, [], none, hds, hfs, isExponent_nil, ?_⟩
      rw [heq, if_neg (Int.not_le.2 hexponent), writeFraction, List.append_nil, List.append_nil]
      exact List.cons_ne_nil f gs
    · rw [Binary64.positional, if_pos hexponent, if_pos hexponent]
      exact ⟨_, ['0'], [], none, isIntegral_toDigits _, List.forall_mem_singleton.2 rfl,
        isExponent_nil, rfl⟩
  · have hdigits := isIntegral_toDigits x.shortest.1
    exact ⟨_, _, _, _, hdigits.take 0, fun f hf => hdigits.1 f (List.mem_of_mem_drop hf),
      isExponent_writeInteger _, rfl⟩

/-- The fraction is read up to the exponent. -/
theorem readFraction?_writeFraction {fs tail : List Char} {exponent : Option Int}
    (hfs : ∀ f ∈ fs, f.isDigit = true) (htail : IsExponent tail exponent) :
    ∃ fraction, ∀ rest, Delimited rest →
      spanDigits (writeFraction fs ++ (tail ++ rest)) =
          ([], writeFraction fs ++ (tail ++ rest)) ∧
        readFraction? (writeFraction fs ++ (tail ++ rest)) = some (fraction, tail ++ rest) := by
  cases fs with
  | nil =>
    refine ⟨none, fun rest h => ?_⟩
    obtain ⟨hspan, hfraction, -⟩ := htail rest h
    exact ⟨hspan, hfraction⟩
  | cons f gs =>
    refine ⟨some (digitsOf (f :: gs)), fun rest h => ⟨rfl, ?_⟩⟩
    show readFraction? ('.' :: (f :: gs ++ (tail ++ rest))) = _
    rw [readFraction?, spanDigits_append hfs (htail rest h).1]
    rfl

/-- A number in its parts, up to a character that no number contains. -/
theorem readNumber?_parts {ds fs tail : List Char} {exponent : Option Int} (hds : IsIntegral ds)
    (hfs : ∀ f ∈ fs, f.isDigit = true) (htail : IsExponent tail exponent) (isNegative : Bool) :
    ∃ j, ∀ rest, Delimited rest →
      readNumber? ((if isNegative then ['-'] else []) ++ (ds ++ (writeFraction fs ++ tail)) ++ rest) =
        some (j, rest) := by
  obtain ⟨fraction, hfraction⟩ := readFraction?_writeFraction hfs htail
  refine ⟨NumberLiteral.value ⟨isNegative, digitsOf ds, fraction, exponent⟩, fun rest h => ?_⟩
  have hread := readUnsigned?_of_integral hds isNegative (hfraction rest h).1 (hfraction rest h).2
    (htail rest h).2.2
  cases isNegative with
  | false =>
    have hassoc : (if false = true then ['-'] else []) ++ (ds ++ (writeFraction fs ++ tail)) ++ rest =
        ds ++ (writeFraction fs ++ (tail ++ rest)) := by simp
    rw [hassoc, readNumber?_of_integral hds, hread]
  | true =>
    have hassoc : (if true = true then ['-'] else []) ++ (ds ++ (writeFraction fs ++ tail)) ++ rest =
        '-' :: (ds ++ (writeFraction fs ++ (tail ++ rest))) := by simp
    rw [hassoc, readNumber?, hread]

/-- What is read for the text of a decimal, which is null if the decimal is no number. -/
def rereadDecimal (x : Binary64) : Json :=
  if x.isFinite then ((readNumber? (writeDecimal x)).map (·.1)).getD null else null

/-- The text of a decimal is read up to a character that no number contains. -/
theorem readNumber?_writeDecimal {x : Binary64} (hx : x.isFinite = true) {rest : List Char}
    (h : Delimited rest) : readNumber? (writeDecimal x ++ rest) = some (rereadDecimal x, rest) := by
  obtain ⟨ds, fs, tail, exponent, hds, hfs, htail, heq⟩ := exists_writeDecimal_eq hx
  obtain ⟨j, hread⟩ := readNumber?_parts hds hfs htail x.isNegative
  have halone := hread [] trivial
  rw [List.append_nil] at halone
  rw [rereadDecimal, if_pos hx, heq, halone, hread rest h]
  rfl

end Worklist.Json
