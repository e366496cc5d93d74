/-
Texts up to the case of ASCII letters.

Only the twenty-six capitals are changed by being put in lower case
(`toLower_eq_self_or_mem`), so a function that takes each capital like its
small letter takes every character so, which is settled by trying them
(`apply_toLower`). What reads a text through such functions alone reads it
the same in lower case. That goes for trimming and for the search for signs
that are no letters, and for full lower-casing as well
(`lower_lowerAscii`), which makes of an ASCII text no more than that
(`lower_of_ascii`).
-/
import SourceDigest.Text.Casing
import SourceDigest.Proofs.Text.Blanks

namespace SourceDigest

namespace Text

variable {t : Text} {c d : Char} {p : Char → Bool}

-- ================================================================== characters

/-- The capital letters of ASCII. -/
def capitals : List Char := (List.range 26).map fun n => Char.ofNat (0x41 + n)

/-- Only a capital is changed by being put in lower case. -/
theorem toLower_eq_self_or_mem (c : Char) : c.toLower = c ∨ c ∈ capitals := by
  by_cases h : 'A'.val ≤ c.val ∧ c.val ≤ 'Z'.val
  · right
    have hlow : 0x41 ≤ c.toNat := UInt32.le_iff_toNat_le.1 h.1
    have hhigh : c.toNat ≤ 0x5A := UInt32.le_iff_toNat_le.1 h.2
    refine List.mem_map.2 ⟨c.toNat - 0x41, List.mem_range.2 (by omega), ?_⟩
    rw [Nat.add_sub_cancel' hlow, Char.ofNat_toNat]
  · left
    unfold Char.toLower
    exact dif_neg h

/-- What takes each capital like its small letter takes any character like its
small letter. -/
theorem apply_toLower {α : Type} [DecidableEq α] (f : Char → α)
    (h : capitals.all (fun c => f c.toLower = f c) = true) (c : Char) :
    f c.toLower = f c := by
  rcases toLower_eq_self_or_mem c with hc | hc
  · rw [hc]
  · simpa using List.all_eq_true.1 h c hc

theorem foldCase_toLower (c : Char) : foldCase c.toLower = foldCase c :=
  apply_toLower foldCase (by decide) c

/-- Blanks are no letters. -/
theorem isBlank_toLower (c : Char) : isBlank c.toLower = isBlank c :=
  apply_toLower isBlank (by decide) c

theorem isCased_toLower (c : Char) : isCased c.toLower = isCased c :=
  apply_toLower isCased (by decide) c

theorem isCaseIgnorable_toLower (c : Char) :
    isCaseIgnorable c.toLower = isCaseIgnorable c :=
  apply_toLower isCaseIgnorable (by decide) c

/-- What lower case has for a capital it has for its small letter too. -/
theorem lowerChar_toLower (c : Char) : lowerChar c.toLower = lowerChar c :=
  apply_toLower lowerChar (by decide) c

/-- A character that is no ASCII letter. -/
def HasNoCase (d : Char) : Prop :=
  capitals.all (fun c => (c.toLower == d) == (c == d)) = true

instance : DecidablePred HasNoCase := fun d =>
  inferInstanceAs (Decidable (capitals.all (fun c => (c.toLower == d) == (c == d)) = true))

/-- Looking for a character that is no letter takes no notice of case. -/
theorem toLower_beq (hd : HasNoCase d) (c : Char) : (c.toLower == d) = (c == d) :=
  apply_toLower (· == d) (by simpa [HasNoCase] using hd) c

theorem toLower_eq_iff (hd : HasNoCase d) : c.toLower = d ↔ c = d := by
  rw [← beq_iff_eq, toLower_beq hd, beq_iff_eq]

theorem eq_toLower_iff (hd : HasNoCase d) : d = c.toLower ↔ d = c := by
  rw [eq_comm, toLower_eq_iff hd, eq_comm]

-- ======================================================================= texts

/-- A text in lower case stays as it is. -/
theorem lowerAscii_lowerAscii (t : Text) :
    lowerAscii (lowerAscii t) = lowerAscii t := by
  unfold lowerAscii
  rw [List.map_map]
  exact List.map_congr_left fun c _ => Char.toLower_toLower_eq_toLower c

/-- Signs that are no letters neither come nor go. -/
theorem mem_lowerAscii_iff (hd : HasNoCase d) : d ∈ lowerAscii t ↔ d ∈ t := by
  unfold lowerAscii
  rw [List.mem_map]
  constructor
  · intro h
    obtain ⟨c, hc, hcd⟩ := h
    rwa [← (toLower_eq_iff hd).1 hcd]
  · intro h
    exact ⟨d, h, (toLower_eq_iff hd).2 rfl⟩

theorem contains_lowerAscii (hd : HasNoCase d) (t : Text) :
    (lowerAscii t).contains d = t.contains d := by
  rw [Bool.eq_iff_iff, List.contains_iff_mem, List.contains_iff_mem,
    mem_lowerAscii_iff hd]

/-- A sign in front stays in front. -/
theorem head?_lowerAscii_eq_iff (hd : HasNoCase d) :
    (lowerAscii t).head? = some d ↔ t.head? = some d := by
  cases t with
  | nil => rfl
  | cons c t => simpa [lowerAscii] using toLower_eq_iff hd

/-- A sign at the end stays at the end. -/
theorem getLast?_lowerAscii_eq_iff (hd : HasNoCase d) :
    (lowerAscii t).getLast? = some d ↔ t.getLast? = some d := by
  rw [← List.head?_reverse, ← List.head?_reverse, lowerAscii, ← List.map_reverse]
  exact head?_lowerAscii_eq_iff hd

/-- A test that does not see case stops at the same place. -/
theorem dropWhile_lowerAscii (hp : ∀ c, p c.toLower = p c) (t : Text) :
    (lowerAscii t).dropWhile p = lowerAscii (t.dropWhile p) := by
  unfold lowerAscii
  rw [List.dropWhile_map, show p ∘ Char.toLower = p from funext hp]

/-- What such a test takes from the front is put in lower case with the
rest. -/
theorem takeWhile_lowerAscii (hp : ∀ c, p c.toLower = p c) (t : Text) :
    (lowerAscii t).takeWhile p = lowerAscii (t.takeWhile p) := by
  unfold lowerAscii
  rw [List.takeWhile_map, show p ∘ Char.toLower = p from funext hp]

/-- A test that does not see case finds something in both texts or in
neither. -/
theorem any_lowerAscii (hp : ∀ c, p c.toLower = p c) (t : Text) :
    (lowerAscii t).any p = t.any p := by
  unfold lowerAscii
  rw [List.any_map, show p ∘ Char.toLower = p from funext hp]

theorem reverse_lowerAscii (t : Text) :
    (lowerAscii t).reverse = lowerAscii t.reverse := List.map_reverse.symm

/-- Trimming and lower case do not disturb each other. -/
theorem trim_lowerAscii (t : Text) : trim (lowerAscii t) = lowerAscii (trim t) := by
  unfold trim trimOf trimEndOf trimStartOf
  rw [dropWhile_lowerAscii isBlank_toLower, reverse_lowerAscii,
    dropWhile_lowerAscii isBlank_toLower, reverse_lowerAscii]

/-- The piece behind the last of some sign is put in lower case with the
whole. -/
theorem afterLast_lowerAscii (hd : HasNoCase d) (t : Text) :
    afterLast d (lowerAscii t) = lowerAscii (afterLast d t) := by
  unfold afterLast
  rw [reverse_lowerAscii, takeWhile_lowerAscii, reverse_lowerAscii]
  exact fun c => by simp only [ne_eq, toLower_eq_iff hd]

/-- So are the two pieces that the last of some sign parts. -/
theorem splitLast?_lowerAscii (hd : HasNoCase d) (t : Text) :
    splitLast? d (lowerAscii t)
      = (splitLast? d t).map (Prod.map lowerAscii lowerAscii) := by
  have hstop : ∀ c : Char, decide (c.toLower ≠ d) = decide (c ≠ d) := fun c => by
    simp only [ne_eq, toLower_eq_iff hd]
  unfold splitLast?
  rw [contains_lowerAscii hd, reverse_lowerAscii, dropWhile_lowerAscii hstop,
    takeWhile_lowerAscii hstop, reverse_lowerAscii]
  split
  · simp [lowerAscii, Prod.map]
  · rfl

/-- Signs may be exchanged before or after. -/
theorem replace_lowerAscii {new : Char} (hd : HasNoCase d) (hnew : HasNoCase new)
    (t : Text) : replace d new (lowerAscii t) = lowerAscii (replace d new t) := by
  unfold replace lowerAscii
  rw [List.map_map, List.map_map]
  refine List.map_congr_left fun c _ => ?_
  simp only [Function.comp_apply, toLower_eq_iff hd]
  split
  · exact ((toLower_eq_iff hnew).2 rfl).symm
  · rfl

-- ================================================================ lower-casing

/-- Whether a letter comes next, with signs passed over that have no say, does
not depend on its case. -/
theorem meetsCased_lowerAscii (t : Text) :
    meetsCased (lowerAscii t) = meetsCased t := by
  have hseen : (fun c => !isCaseIgnorable c) ∘ Char.toLower
      = fun c => !isCaseIgnorable c :=
    funext fun c => congrArg (!·) (isCaseIgnorable_toLower c)
  unfold meetsCased lowerAscii
  rw [List.find?_map, hseen]
  cases t.find? fun c => !isCaseIgnorable c with
  | none => rfl
  | some c => exact isCased_toLower c

/-- Full lower-casing does not see the case of ASCII letters. -/
theorem lowerAfter_lowerAscii (passed t : Text) :
    lowerAfter (lowerAscii passed) (lowerAscii t) = lowerAfter passed t := by
  induction t generalizing passed with
  | nil => rfl
  | cons c t ih =>
      have hsigma : c.toLower.toNat = 0x3A3 ↔ c.toNat = 0x3A3 := by
        have h := apply_toLower (fun c => decide (c.toNat = 0x3A3)) (by decide) c
        simpa using h
      show (if c.toLower.toNat = 0x3A3 ∧ meetsCased (lowerAscii passed)
            ∧ ¬ meetsCased (lowerAscii t) then ['\u03C2'] else lowerChar c.toLower)
          ++ lowerAfter (lowerAscii (c :: passed)) (lowerAscii t) = _
      rw [meetsCased_lowerAscii, meetsCased_lowerAscii, lowerChar_toLower, ih]
      simp only [hsigma]
      rfl

/-- Full lower-casing may have the ASCII letters put in lower case
beforehand. -/
theorem lower_lowerAscii (t : Text) : lower (lowerAscii t) = lower t :=
  lowerAfter_lowerAscii [] t

/-- A text of ASCII characters alone. -/
def Ascii (t : Text) : Prop := ∀ c ∈ t, c.toNat < 0x80

instance : DecidablePred Ascii := fun t =>
  List.decidableBAll (fun c : Char => c.toNat < 0x80) t

/-- Of a text of ASCII characters only the letters are changed. -/
theorem lower_of_ascii (h : Ascii t) : lower t = lowerAscii t := by
  have hafter : ∀ passed : Text, lowerAfter passed t = lowerAscii t := by
    induction t with
    | nil => exact fun _ => rfl
    | cons c t ih =>
        intro passed
        have hc : c.toNat < 0x80 := h c (List.mem_cons_self ..)
        have hsigma : ¬ c.toNat = 0x3A3 := by omega
        rw [lowerAfter, if_neg (fun hand => hsigma hand.1), lowerChar, if_pos hc,
          ih (fun d hd => h d (List.mem_cons_of_mem c hd))]
        rfl
  exact hafter []

/-- Folding leaves an ASCII text in lower case as it is. -/
theorem foldCase_of_ascii (h : Ascii t) : ∀ c ∈ lowerAscii t, foldCase c = c := by
  intro c hc
  obtain ⟨d, hd, rfl⟩ := List.mem_map.1 hc
  rw [foldCase_toLower]
  exact if_pos (h d hd)

/-- Trimming an ASCII text leaves one. -/
theorem Ascii.trim (h : Ascii t) : Ascii (trim t) := fun c hc =>
  h c ((List.dropWhile_suffix _).subset ((trimEndOf_isPrefix _ _).subset hc))

/-- An ASCII character may be put in place of another. -/
theorem Ascii.replace {new : Char} (h : Ascii t) (hnew : new.toNat < 0x80) :
    Ascii (replace d new t) := by
  intro c hc
  obtain ⟨b, hb, rfl⟩ := List.mem_map.1 hc
  split
  · exact hnew
  · exact h b hb

end Text

end SourceDigest
