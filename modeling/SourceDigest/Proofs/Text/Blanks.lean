/-
Blanks, and what trimming leaves of a text.

There are twenty-five blanks (`mem_blanks`), so whether a test lets one
pass is settled by trying them all (`isBlank_eq_false`). Trimming takes
away blanks alone: any other character is left as often as it was
(`count_trim`), a text without a blank at either end is left as it is
(`trim_eq_self`), behind what stays only the end is trimmed
(`trimOf_append`), and between two pieces that stay nothing is
(`trim_append_between`).
-/
import Mathlib
import SourceDigest.Text.Basic

namespace SourceDigest

namespace Text

variable {t : Text} {c : Char} {p : Char → Bool}

/-- The blanks, one by one. -/
def blanks : List Char :=
  ([0x09, 0x0A, 0x0B, 0x0C, 0x0D, 0x20, 0x85, 0xA0, 0x1680, 0x2000, 0x2001, 0x2002,
    0x2003, 0x2004, 0x2005, 0x2006, 0x2007, 0x2008, 0x2009, 0x200A, 0x2028, 0x2029,
    0x202F, 0x205F, 0x3000] : List Nat).map Char.ofNat

theorem mem_blanks (h : isBlank c = true) : c ∈ blanks := by
  rw [← Char.ofNat_toNat c]
  refine List.mem_map_of_mem ?_
  simp only [isBlank, Bool.or_eq_true, Bool.and_eq_true, decide_eq_true_eq,
    beq_iff_eq] at h
  simp only [List.mem_cons, List.not_mem_nil, or_false]
  omega

/-- What passes a test that no blank passes is no blank. -/
theorem isBlank_eq_false (test : Char → Bool)
    (htest : blanks.all (fun c => !test c) = true) (c : Char) (hc : test c = true) :
    isBlank c = false := by
  by_contra hblank
  have hfails := List.all_eq_true.1 htest c (mem_blanks (by simpa using hblank))
  simp [hc] at hfails

/-- Trimming the end leaves a text as it is whose last character stays. -/
theorem trimEndOf_eq_self (hc : t.getLast? = some c) (hstays : p c = false) :
    trimEndOf p t = t := by
  obtain ⟨rest, rfl⟩ := List.getLast?_eq_some_iff.1 hc
  simp [trimEndOf, hstays]

/-- Trimming leaves a text as it is that has no blank at either end. -/
theorem trim_eq_self {a b : Char} (ha : t.head? = some a) (hb : t.getLast? = some b)
    (hablank : isBlank a = false) (hbblank : isBlank b = false) : trim t = t := by
  have hfront : trimStartOf isBlank t = t := by
    obtain ⟨rest, rfl⟩ := List.head?_eq_some_iff.1 ha
    simp [trimStartOf, hablank]
  rw [trim, trimOf, hfront, trimEndOf_eq_self hb hbblank]

/-- Trimming stops at the last character that stays. -/
theorem trimEndOf_append_cons (hc : p c = false) (s t : Text) :
    trimEndOf p (s ++ c :: t) = s ++ c :: trimEndOf p t := by
  unfold trimEndOf
  rw [List.reverse_append, List.reverse_cons, List.append_assoc,
    List.dropWhile_append]
  split
  · rename_i hnil
    rw [List.isEmpty_iff.1 hnil]
    simp [hc]
  · simp

theorem trimEndOf_isPrefix (p : Char → Bool) (t : Text) : trimEndOf p t <+: t := by
  unfold trimEndOf
  rw [← List.reverse_suffix, List.reverse_reverse]
  exact List.dropWhile_suffix p

theorem trimEndOf_append_of_forall {g : Text} (hg : ∀ c ∈ g, p c = true)
    (t : Text) : trimEndOf p (t ++ g) = trimEndOf p t := by
  unfold trimEndOf
  rw [List.reverse_append, List.dropWhile_append_of_pos fun c hc =>
    hg c (List.mem_reverse.1 hc)]

/-- What may go goes from the front if nothing stays behind it. -/
theorem trimEndOf_cons (hc : p c = true) (t : Text) :
    trimEndOf p (c :: t) = if trimEndOf p t = [] then [] else c :: trimEndOf p t := by
  unfold trimEndOf
  rw [List.reverse_cons, List.dropWhile_append]
  simp only [List.reverse_eq_nil_iff, List.isEmpty_iff]
  split <;> simp [hc]

theorem trimEndOf_trimEndOf (p : Char → Bool) (t : Text) :
    trimEndOf p (trimEndOf p t) = trimEndOf p t := by
  unfold trimEndOf
  rw [List.reverse_reverse, List.dropWhile_idempotent]

theorem trimEndOf_eq_nil {g : Text} (hg : ∀ c ∈ g, p c = true) :
    trimEndOf p g = [] := by
  rw [← List.nil_append g, trimEndOf_append_of_forall hg]
  rfl

/-- Blanks in front are trimmed away. -/
theorem trim_append_left {g : Text} (hg : ∀ c ∈ g, isBlank c = true) (t : Text) :
    trim (g ++ t) = trim t := by
  unfold trim trimOf trimStartOf
  rw [List.dropWhile_append_of_pos hg]

/-- Blanks alone are trimmed away. -/
theorem trim_eq_nil {g : Text} (hg : ∀ c ∈ g, isBlank c = true) : trim g = [] := by
  rw [← List.append_nil g, trim_append_left hg]
  rfl

/-- What is in front and stays as a whole leaves the end alone to be trimmed. -/
theorem trimOf_append {front : Text} (hne : front ≠ [])
    (hstays : ∀ c ∈ front, p c = false) (t : Text) :
    trimOf p (front ++ t) = front ++ trimEndOf p t := by
  obtain ⟨a, rest, rfl⟩ := List.exists_cons_of_ne_nil hne
  unfold trimOf trimStartOf
  rw [List.cons_append, List.dropWhile_cons_of_neg (by simp [hstays a]),
    ← List.cons_append]
  obtain ⟨init, c, hlast⟩ := (List.eq_nil_or_concat' (a :: rest)).resolve_left hne
  have hc : p c = false := hstays c (by rw [hlast]; simp)
  rw [hlast, List.append_assoc, List.singleton_append, trimEndOf_append_cons hc,
    List.append_assoc, List.singleton_append]

theorem count_trimStartOf (hc : p c = false) (t : Text) :
    (trimStartOf p t).count c = t.count c := by
  have hfront : (t.takeWhile p).count c = 0 := by
    rw [List.count_eq_zero]
    intro hmem
    have := List.mem_takeWhile_imp hmem
    simp [hc] at this
  have hparts := congrArg (List.count c) (List.takeWhile_append_dropWhile (p := p) (l := t))
  rw [List.count_append, hfront, Nat.zero_add] at hparts
  exact hparts

/-- What is no blank is left as often as it was. -/
theorem count_trim (hc : isBlank c = false) (t : Text) :
    (trim t).count c = t.count c := by
  unfold trim trimOf trimEndOf
  rw [List.count_reverse]
  show (trimStartOf isBlank (trimStartOf isBlank t).reverse).count c = _
  rw [count_trimStartOf hc, List.count_reverse, count_trimStartOf hc]

/-- What is no blank is there after trimming if it was there before. -/
theorem mem_trim_iff (hc : isBlank c = false) : c ∈ trim t ↔ c ∈ t := by
  rw [← List.count_pos_iff, count_trim hc, List.count_pos_iff]

/-- What holds more than blanks is not empty when trimmed. -/
theorem trim_ne_nil (hmem : c ∈ t) (hc : isBlank c = false) : trim t ≠ [] :=
  List.ne_nil_of_mem ((mem_trim_iff hc).2 hmem)

/-- Blanks alone leave nothing. -/
theorem trim_eq_nil_iff : trim t = [] ↔ ∀ c ∈ t, isBlank c = true := by
  refine ⟨fun h c hmem => ?_, trim_eq_nil⟩
  by_contra hc
  exact trim_ne_nil hmem (Bool.eq_false_iff.2 hc) h

/-- Trimming leaves nothing to a second trimming but blanks, if to itself. -/
theorem trim_trim_eq_nil_iff : trim (trim t) = [] ↔ trim t = [] := by
  refine ⟨fun h => ?_, fun h => by rw [h]; rfl⟩
  rw [trim_eq_nil_iff] at h ⊢
  intro c hmem
  by_contra hc
  exact hc (h c ((mem_trim_iff (Bool.eq_false_iff.2 hc)).2 hmem))

/-- Trimming goes up to a character that stays from both sides. -/
theorem trim_append_cons (hc : isBlank c = false) (s t : Text) :
    trim (s ++ c :: t) = trimStartOf isBlank s ++ c :: trimEndOf isBlank t := by
  have hfront : trimStartOf isBlank (s ++ c :: t) = trimStartOf isBlank s ++ c :: t := by
    unfold trimStartOf
    rw [List.dropWhile_append]
    split
    · rename_i hnil
      rw [List.isEmpty_iff.1 hnil, List.dropWhile_cons_of_neg (by simp [hc])]
      rfl
    · rfl
  rw [trim, trimOf, hfront, trimEndOf_append_cons hc]

/-- What stands between two pieces stays, blank or not. -/
theorem trim_append_between {s t : Text} {b : Char}
    (hs : s.getLast?.any (!isBlank ·) = true) (ht : t.head?.any (!isBlank ·) = true) :
    trim (s ++ b :: t) = trim s ++ b :: trim t := by
  obtain ⟨c, hlast, hc⟩ := (Option.any_eq_true ..).1 hs
  obtain ⟨d, hhead, hd⟩ := (Option.any_eq_true ..).1 ht
  obtain ⟨s, rfl⟩ := List.getLast?_eq_some_iff.1 hlast
  obtain ⟨t, rfl⟩ := List.head?_eq_some_iff.1 hhead
  rw [Bool.not_eq_true'] at hc hd
  have hback : trimEndOf isBlank (b :: d :: t) = b :: d :: trimEndOf isBlank t :=
    trimEndOf_append_cons hd [b] t
  have htail : trim (d :: t) = d :: trimEndOf isBlank t := trim_append_cons hd [] t
  rw [List.append_assoc, List.singleton_append, trim_append_cons hc, hback,
    trim_append_cons hc, htail, List.append_assoc]
  rfl

/-- Blanks behind are trimmed away. -/
theorem trim_append_right {s g : Text} (hs : s.getLast?.any (!isBlank ·) = true)
    (hg : ∀ c ∈ g, isBlank c = true) : trim (s ++ g) = trim s := by
  obtain ⟨c, hlast, hc⟩ := (Option.any_eq_true ..).1 hs
  obtain ⟨s, rfl⟩ := List.getLast?_eq_some_iff.1 hlast
  rw [Bool.not_eq_true'] at hc
  rw [List.append_assoc, List.singleton_append, trim_append_cons hc, trim_append_cons hc,
    trimEndOf_eq_nil hg]
  rfl

end Text

end SourceDigest
