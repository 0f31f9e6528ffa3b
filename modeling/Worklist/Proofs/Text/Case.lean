import Worklist.Text.Fold
import Worklist.Text.Lower

/-!
# Two notions of case

Two texts are the same without regard to case if their lower cases are the same, or if they have
the same folded characters.  The lower case of a text depends on what stands around a letter and
may be longer than the text, and the tables of the two notions list different letters, so the
notions are not the same.

`contested` lists the letters on which they part.  Everywhere else a letter and its fold have one
lower case, and a letter and its lower case have one fold (`lowerings_fold`, `fold_lowerings`), so
texts without contested letters are the same by both notions or by neither
(`map_fold_eq_iff`).  No letter can be left out of the list (`contested_iff`).

The tables are checked letter by letter, each run of one table against the runs of the other one
that meet it (`Run.isAbsorbed`).
-/

namespace Worklist.Text

variable {r : Run} {runs : List Run} {except : CharSet} {first last n k : Nat}

/-! ## Code points under a mapping -/

/-- Where runs move a code point. -/
def moved (runs : List Run) (n : Nat) : Nat := (runs.findSome? (·.image? n)).getD n

theorem apply_eq_ofNat (m : CaseMap) (c : Char) :
    m.apply c = Char.ofNat (moved m.runs c.toNat) := by
  rw [CaseMap.apply, moved]
  cases m.runs.findSome? (·.image? c.toNat) with
  | none => exact (Char.ofNat_toNat c).symm
  | some n => rfl

/-- Whether a run and a range of code points overlap. -/
def Run.meets (first last : Nat) (r : Run) : Bool := Nat.ble r.first last && Nat.ble first r.last

/-- A code point that a run moves is so many steps from the first one, and its image is as many
steps from the target. -/
theorem Run.exists_steps (h : r.image? n = some k) :
    r.first ≤ n ∧ n ≤ r.last ∧ ∃ i ≤ (r.last - r.first) / r.step,
      n = r.first + r.step * i ∧ k = r.target + r.step * i := by
  simp only [image?, Bool.and_eq_true, decide_eq_true_eq, beq_iff_eq,
    Option.ite_none_right_eq_some, Option.some.injEq] at h
  obtain ⟨⟨⟨hfirst, hlast⟩, hstep⟩, rfl⟩ := h
  have hsteps : r.step * ((n - r.first) / r.step) = n - r.first := by
    simpa only [hstep, Nat.add_zero] using Nat.div_add_mod (n - r.first) r.step
  exact ⟨hfirst, hlast, (n - r.first) / r.step, Nat.div_le_div_right (by omega), by omega, by omega⟩

/-- Runs that do not meet a range do not matter for its code points. -/
theorem moved_filter_meets (hfirst : first ≤ n) (hlast : n ≤ last) :
    moved (runs.filter (Run.meets first last)) n = moved runs n := by
  induction runs with
  | nil => rfl
  | cons r runs ih =>
    rw [List.filter_cons]
    split
    · cases himage : r.image? n with
      | none => simpa only [moved, List.findSome?_cons, himage] using ih
      | some k => simp only [moved, List.findSome?_cons, himage]
    · next hmeets =>
      have himage : r.image? n = none := by
        refine Option.eq_none_iff_forall_ne_some.2 fun k hk => hmeets ?_
        obtain ⟨hn, hn', -⟩ := Run.exists_steps hk
        rw [Run.meets, Bool.and_eq_true, Nat.ble_eq, Nat.ble_eq]
        omega
      rw [ih]
      simp only [moved, List.findSome?_cons, himage]

/-! ## Checking one table against another -/

/-- Whether all images of a run are characters. -/
def Run.landsOnChars (r : Run) : Bool :=
  let last := r.target + (r.last - r.first)
  last < 0xD800 || 0xDFFF < r.target && last < 0x110000

/-- Whether a code point of a run and its image are the same to other runs, with exceptions. -/
def Run.isAbsorbed (runs : List Run) (except : CharSet) (r : Run) : Bool :=
  let here := runs.filter (meets r.first r.last)
  let there := runs.filter (meets r.target (r.target + (r.last - r.first)))
  r.landsOnChars && (List.range ((r.last - r.first) / r.step + 1)).all fun i =>
    Nat.beq (moved there (r.target + r.step * i)) (moved here (r.first + r.step * i)) ||
      isWithin (r.first + r.step * i) except.ranges

theorem Run.moved_image (hr : r.isAbsorbed runs except = true) (himage : r.image? n = some k)
    (hn : isWithin n except.ranges = false) :
    (Char.ofNat k).toNat = k ∧ moved runs k = moved runs n := by
  obtain ⟨hfirst, hlast, i, hi, rfl, rfl⟩ := exists_steps himage
  simp only [isAbsorbed, landsOnChars, Bool.and_eq_true, Bool.or_eq_true, decide_eq_true_eq,
    List.all_eq_true, List.mem_range, Nat.beq_eq] at hr
  obtain ⟨hchar, hsame⟩ := hr
  constructor
  · have hvalid : (r.target + r.step * i).isValidChar := by
      rw [Nat.isValidChar]
      omega
    rw [Char.ofNat, dif_pos hvalid]
    rfl
  · have hmoved := (hsame i (by omega)).resolve_right (by rw [hn]; exact Bool.false_ne_true)
    rwa [moved_filter_meets (by omega) (by omega), moved_filter_meets hfirst hlast] at hmoved

/-- A mapping whose runs are absorbed by another one does not matter before it. -/
theorem apply_apply_of_absorbed {m m' : CaseMap} {c : Char}
    (h : m.runs.all (Run.isAbsorbed m'.runs except) = true) (hc : except.contains c = false) :
    m'.apply (m.apply c) = m'.apply c := by
  rw [apply_eq_ofNat m c, moved]
  cases himage : m.runs.findSome? (·.image? c.toNat) with
  | none => rw [Option.getD_none, Char.ofNat_toNat]
  | some k =>
    obtain ⟨r, hr, hk⟩ := List.exists_of_findSome?_eq_some himage
    obtain ⟨hchar, hmoved⟩ := Run.moved_image (List.all_eq_true.1 h r hr) hk hc
    rw [Option.getD_some, apply_eq_ofNat, apply_eq_ofNat m' c, hchar, hmoved]

/-! ## Contested letters -/

/-- The letters on which the two notions of case part. -/
def contested : CharSet :=
  ⟨[(0xB5, 0xB5), (0x130, 0x130), (0x17F, 0x17F), (0x345, 0x345), (0x3A3, 0x3A3), (0x3C2, 0x3C2),
    (0x3D0, 0x3D1), (0x3D5, 0x3D6), (0x3F0, 0x3F1), (0x3F5, 0x3F5), (0x1C80, 0x1C88),
    (0x1E9B, 0x1E9B), (0x1FBE, 0x1FBE), (0x1FD3, 0x1FD3), (0x1FE3, 0x1FE3), (0xA7CE, 0xA7CE),
    (0xA7D2, 0xA7D2), (0xA7D4, 0xA7D4), (0xFB05, 0xFB05), (0x16EA0, 0x16EB8)]⟩

/-- A text in which both notions of case are the same. -/
def Uncontested (cs : List Char) : Prop := ∀ c ∈ cs, contested.contains c = false

instance (cs : List Char) : Decidable (Uncontested cs) := List.decidableBAll _ cs

theorem foldings_absorbed : foldings.runs.all (Run.isAbsorbed lowerings.runs contested) = true := by
  decide +kernel

theorem lowerings_absorbed :
    lowerings.runs.all (Run.isAbsorbed foldings.runs contested) = true := by decide +kernel

/-- A letter and its fold have one lower case. -/
theorem lowerings_fold {c : Char} (hc : contested.contains c = false) :
    lowerings.apply (fold c) = lowerings.apply c := apply_apply_of_absorbed foldings_absorbed hc

/-- A letter and its lower case have one fold. -/
theorem fold_lowerings {c : Char} (hc : contested.contains c = false) :
    fold (lowerings.apply c) = fold c := apply_apply_of_absorbed lowerings_absorbed hc

variable {cs ds : List Char}

/-- Only the capital sigma and the capital I with a dot are lowered with regard to the text around
them or to more than one character, and both are contested. -/
theorem lowerAfter_eq_map (hcs : Uncontested cs) (before : List Char) :
    lowerAfter before cs = cs.map lowerings.apply := by
  induction cs generalizing before with
  | nil => rfl
  | cons c cs ih =>
    obtain ⟨hc, hcs⟩ := List.forall_mem_cons.1 hcs
    have hsigma : c ≠ '\u03A3' := by
      rintro rfl
      exact absurd hc (by decide)
    have hdotted : c ≠ '\u0130' := by
      rintro rfl
      exact absurd hc (by decide)
    rw [lowerAfter, lowerBetween, if_neg hsigma, if_neg hdotted, ih hcs, List.map_cons,
      List.singleton_append]

/-- Texts without contested letters are the same by both notions of case or by neither. -/
theorem map_fold_eq_iff (hcs : Uncontested cs) (hds : Uncontested ds) :
    cs.map fold = ds.map fold ↔ lowerAfter [] cs = lowerAfter [] ds := by
  have hlower : ∀ {es}, Uncontested es → (es.map fold).map lowerings.apply = lowerAfter [] es := by
    intro es hes
    rw [lowerAfter_eq_map hes, List.map_map]
    exact List.map_congr_left fun e he => lowerings_fold (hes e he)
  have hfold : ∀ {es}, Uncontested es → (lowerAfter [] es).map fold = es.map fold := by
    intro es hes
    rw [lowerAfter_eq_map hes, List.map_map]
    exact List.map_congr_left fun e he => fold_lowerings (hes e he)
  constructor
  · intro h
    rw [← hlower hcs, h, hlower hds]
  · intro h
    rw [← hfold hcs, h, hfold hds]

/-- Whether two texts are the same by one notion of case and not by the other. -/
def Parts (cs ds : List Char) : Prop :=
  ¬(cs.map fold = ds.map fold ↔ lowerAfter [] cs = lowerAfter [] ds)

instance (cs ds : List Char) : Decidable (Parts cs ds) := inferInstanceAs (Decidable ¬_)

/-- A letter and its fold, or a letter without a fold and its lower case.  The letter before them
makes a sigma final. -/
def parting (c : Char) : List Char × List Char :=
  if fold c = c then ([c], lowerAfter [] [c]) else (['A', c], ['A', fold c])

/-- Whether the notions of case part on a letter next to uncontested letters. -/
def isParted (c : Char) : Bool :=
  decide (Parts (parting c).1 (parting c).2) &&
    ((parting c).1 ++ (parting c).2).all fun d => d == c || !contested.contains d

theorem contested_isParted : (contested.ranges.all fun (first, last) =>
    (List.range (last - first + 1)).all fun i => isParted (Char.ofNat (first + i))) = true := by
  decide +kernel

theorem exists_range_of_isWithin {ranges : List (Nat × Nat)} (h : isWithin n ranges = true) :
    ∃ range ∈ ranges, range.1 ≤ n ∧ n ≤ range.2 := by
  induction ranges with
  | nil => cases h
  | cons range ranges ih =>
    rw [isWithin, Bool.and_eq_true, Bool.or_eq_true, decide_eq_true_eq, decide_eq_true_eq] at h
    obtain ⟨hfirst, hlast | hrest⟩ := h
    · exact ⟨range, List.mem_cons_self, hfirst, hlast⟩
    · obtain ⟨range', hmem, hrange'⟩ := ih hrest
      exact ⟨range', List.mem_cons_of_mem range hmem, hrange'⟩

/-- The contested letters are those with which two texts that have no other contested letter are
the same by one notion of case only. -/
theorem contested_iff (c : Char) : contested.contains c = true ↔
    ∃ cs ds, Parts cs ds ∧ ∀ d ∈ cs ++ ds, d = c ∨ contested.contains d = false := by
  constructor
  · intro hc
    obtain ⟨⟨first, last⟩, hrange, hfirst, hlast⟩ := exists_range_of_isWithin hc
    have hletters := List.all_eq_true.1 contested_isParted _ hrange
    have hparted := List.all_eq_true.1 hletters (c.toNat - first) (List.mem_range.2 (by omega))
    rw [Nat.add_sub_cancel' hfirst, Char.ofNat_toNat, isParted, Bool.and_eq_true,
      decide_eq_true_eq] at hparted
    refine ⟨_, _, hparted.1, fun d hd => ?_⟩
    simpa using List.all_eq_true.1 hparted.2 d hd
  · rintro ⟨cs, ds, hparts, hletters⟩
    cases hc : contested.contains c with
    | true => rfl
    | false =>
      have hnone : ∀ d ∈ cs ++ ds, contested.contains d = false := fun d hd =>
        (hletters d hd).elim (fun heq => heq ▸ hc) id
      obtain ⟨hcs, hds⟩ := List.forall_mem_append.1 hnone
      exact absurd (map_fold_eq_iff hcs hds) hparts

end Worklist.Text
