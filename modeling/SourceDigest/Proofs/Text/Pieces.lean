/-
Splitting and joining: `splitOn` and `join` are the two directions of one
correspondence between texts and lists of pieces that do not hold the
separator. Paths and globs are both read this way, so what they need is
collected here once.

Both functions agree with the list operations of the same names
(`splitOn_eq`, `join_eq`), which supplies most of the facts below; what
the list library lacks is that no piece holds the separator
(`notMem_of_mem_splitOn`) and that the last piece is what stands after
the last separator (`getLast?_splitOn`).
-/
import Mathlib
import SourceDigest.Text.Basic

namespace SourceDigest

namespace Text

variable {sep : Char}

-- ============================================ agreement with the list library

/-- Splitting a text is splitting a list. -/
theorem splitOn_eq (sep : Char) (t : Text) :
    splitOn sep t = List.splitOn sep t := by
  induction t with
  | nil => rfl
  | cons c t ih =>
      rw [splitOn, List.splitOn_cons_eq_if_modifyHead, ih]
      by_cases hc : c = sep
      · simp [hc]
      · rw [if_neg hc, if_neg (by simpa using hc)]
        cases h : List.splitOn sep t with
        | nil => exact absurd h (List.splitOn_ne_nil sep t)
        | cons piece more => rfl

/-- Joining texts is intercalating lists. -/
theorem join_eq (sep : Text) (ps : List Text) :
    join sep ps = sep.intercalate ps := by
  induction ps with
  | nil => rfl
  | cons p ps ih =>
      cases ps with
      | nil => rw [join, List.intercalate_singleton]
      | cons q ps =>
          show p ++ sep ++ join sep (q :: ps) = _
          rw [ih, List.intercalate_cons_cons]

-- ================================================================== splitting

/-- There is always a piece. -/
theorem splitOn_ne_nil (sep : Char) (t : Text) : splitOn sep t ≠ [] := by
  rw [splitOn_eq]
  exact List.splitOn_ne_nil sep t

/-- A text without the separator is its only piece. -/
theorem splitOn_of_notMem {t : Text} (h : sep ∉ t) : splitOn sep t = [t] := by
  rw [splitOn_eq, List.splitOn_eq_singleton h]

/-- The pieces on both sides of a separator. -/
theorem splitOn_append (sep : Char) (s t : Text) :
    splitOn sep (s ++ sep :: t) = splitOn sep s ++ splitOn sep t := by
  rw [splitOn_eq, splitOn_eq, splitOn_eq, List.splitOn_append_cons_self]

/-- The first piece in front of a separator. -/
theorem splitOn_append_of_notMem {s : Text} (h : sep ∉ s) (t : Text) :
    splitOn sep (s ++ sep :: t) = s :: splitOn sep t := by
  rw [splitOn_append, splitOn_of_notMem h, List.singleton_append]

/-- No piece holds the separator. -/
theorem notMem_of_mem_splitOn {p t : Text} (h : p ∈ splitOn sep t) :
    sep ∉ p := by
  induction t generalizing p with
  | nil =>
      rw [splitOn, List.mem_singleton] at h
      simp [h]
  | cons c t ih =>
      rw [splitOn] at h
      by_cases hc : c = sep
      · rw [if_pos hc] at h
        rcases List.mem_cons.1 h with rfl | h
        · simp
        · exact ih h
      · rw [if_neg hc] at h
        cases ht : splitOn sep t with
        | nil => exact absurd ht (splitOn_ne_nil sep t)
        | cons q more =>
            rw [ht] at h ih
            rcases List.mem_cons.1 h with rfl | h
            · have hq := ih (List.mem_cons_self ..)
              simp only [List.mem_cons, not_or]
              exact ⟨fun he => hc he.symm, hq⟩
            · exact ih (List.mem_cons_of_mem _ h)

-- ==================================================================== joining

theorem join_singleton (sep p : Text) : join sep [p] = p := rfl

theorem join_cons {ps : List Text} (sep p : Text) (h : ps ≠ []) :
    join sep (p :: ps) = p ++ sep ++ join sep ps := by
  cases ps with
  | nil => exact absurd rfl h
  | cons q ps => rfl

/-- Joining two lists of pieces. -/
theorem join_append {ps qs : List Text} (sep : Text) (hp : ps ≠ [])
    (hq : qs ≠ []) :
    join sep (ps ++ qs) = join sep ps ++ sep ++ join sep qs := by
  induction ps with
  | nil => exact absurd rfl hp
  | cons p ps ih =>
      cases ps with
      | nil => rw [List.singleton_append, join_cons sep p hq, join_singleton]
      | cons p' ps =>
          rw [List.cons_append, join_cons sep p (by simp), ih (by simp),
            join_cons sep p (List.cons_ne_nil p' ps)]
          simp only [List.append_assoc]

/-- What is in joined pieces is in one of them, or in the separator. -/
theorem mem_join {c : Char} {sep : Text} {ps : List Text} (h : c ∈ join sep ps) :
    c ∈ sep ∨ ∃ p ∈ ps, c ∈ p := by
  induction ps with
  | nil => exact absurd h List.not_mem_nil
  | cons p ps ih =>
      by_cases hps : ps = []
      · subst hps
        exact Or.inr ⟨p, List.mem_cons_self .., h⟩
      · rw [join_cons sep p hps, List.append_assoc] at h
        rcases List.mem_append.1 h with h | h
        · exact Or.inr ⟨p, List.mem_cons_self .., h⟩
        · rcases List.mem_append.1 h with h | h
          · exact Or.inl h
          · exact (ih h).imp_right fun ⟨q, hq, hc⟩ =>
              ⟨q, List.mem_cons_of_mem _ hq, hc⟩

/-- The last two of some pieces may be joined first. -/
theorem join_concat_concat (sep : Text) (ps : List Text) (p q : Text) :
    join sep (ps ++ [p] ++ [q]) = join sep (ps ++ [p ++ sep ++ q]) := by
  by_cases hps : ps = []
  · subst hps
    rfl
  · rw [List.append_assoc, join_append sep hps (by simp), join_append sep hps (by simp)]
    rfl

/-- The pieces of a text make it up again. -/
theorem join_splitOn (sep : Char) (t : Text) :
    join [sep] (splitOn sep t) = t := by
  rw [join_eq, splitOn_eq, List.intercalate_splitOn]

/-- Joined pieces are found again. -/
theorem splitOn_join {ps : List Text} (h : ∀ p ∈ ps, sep ∉ p) (hne : ps ≠ []) :
    splitOn sep (join [sep] ps) = ps := by
  rw [join_eq, splitOn_eq, List.splitOn_intercalate sep h hne]

/-- A text whose pieces fall into two groups is cut at a separator. -/
theorem eq_append_of_splitOn_eq {t : Text} {ps qs : List Text}
    (h : splitOn sep t = ps ++ qs) (hp : ps ≠ []) (hq : qs ≠ []) :
    t = join [sep] ps ++ sep :: join [sep] qs
      ∧ splitOn sep (join [sep] qs) = qs := by
  constructor
  · rw [← join_splitOn sep t, h, join_append [sep] hp hq, List.append_assoc,
      List.singleton_append]
  · refine splitOn_join (fun p hp' => ?_) hq
    exact notMem_of_mem_splitOn (t := t) (h ▸ List.mem_append_right ps hp')

-- ============================================================ the last piece

/-- What stands after the last separator is the last piece. -/
theorem getLast?_splitOn (sep : Char) (t : Text) :
    (splitOn sep t).getLast? = some (afterLast sep t) := by
  obtain ⟨ps, p, hps⟩ := (List.eq_nil_or_concat' (splitOn sep t)).resolve_left
    (splitOn_ne_nil sep t)
  have hp : sep ∉ p := notMem_of_mem_splitOn (t := t) (by rw [hps]; simp)
  have hall : ∀ c ∈ p.reverse, (decide (c ≠ sep)) = true := by
    intro c hc
    simp only [decide_eq_true_eq]
    intro h
    subst h
    exact hp (List.mem_reverse.1 hc)
  have hlast : afterLast sep t = p := by
    rw [← join_splitOn sep t, hps]
    unfold afterLast
    by_cases hnil : ps = []
    · subst hnil
      rw [List.nil_append, join_singleton, List.takeWhile_eq_self_iff.2 hall,
        List.reverse_reverse]
    · rw [join_append [sep] hnil (by simp), join_singleton, List.reverse_append,
        List.reverse_append, List.takeWhile_append_of_pos hall]
      simp
  rw [hlast, hps, List.getLast?_concat]

/-- What stands in front of a separator does not stand after the last. -/
theorem afterLast_append_cons (sep : Char) (s t : Text) :
    afterLast sep (s ++ sep :: t) = afterLast sep t := by
  have hlast := getLast?_splitOn sep (s ++ sep :: t)
  rw [splitOn_append, List.getLast?_append, getLast?_splitOn] at hlast
  exact (Option.some.inj hlast).symm

theorem afterLast_of_notMem {t : Text} (h : sep ∉ t) : afterLast sep t = t := by
  have hlast := getLast?_splitOn sep t
  rw [splitOn_of_notMem h] at hlast
  exact (Option.some.inj hlast).symm

/-- A last piece is what stands after the last separator. -/
theorem afterLast_append_of_notMem {t : Text} (h : sep ∉ t) (s : Text) :
    afterLast sep (s ++ sep :: t) = t := by
  rw [afterLast_append_cons, afterLast_of_notMem h]

theorem mem_of_mem_afterLast {c : Char} {t : Text} (h : c ∈ afterLast sep t) :
    c ∈ t := by
  have hmem := List.mem_reverse.1 h
  exact List.mem_reverse.1 ((List.takeWhile_prefix _).subset hmem)

theorem splitLast?_of_notMem {t : Text} (h : sep ∉ t) :
    splitLast? sep t = none := by
  unfold splitLast?
  rw [if_neg (by simpa using h)]

/-- A text falls apart at the last separator. -/
theorem splitLast?_append_of_notMem {t : Text} (h : sep ∉ t) (s : Text) :
    splitLast? sep (s ++ sep :: t) = some (s, t) := by
  have hafter := afterLast_append_of_notMem h s
  unfold afterLast at hafter
  unfold splitLast?
  rw [if_pos (by simp), hafter]
  have hall : ∀ c ∈ t.reverse, (decide (c ≠ sep)) = true := by
    intro c hc
    rw [decide_eq_true_eq]
    rintro rfl
    exact h (List.mem_reverse.1 hc)
  rw [List.reverse_append, List.reverse_cons, List.append_assoc,
    List.dropWhile_append_of_pos hall]
  simp

-- =========================================================== the first piece

theorem before_append {s : Text} (h : sep ∉ s) (t : Text) :
    before sep (s ++ t) = s ++ before sep t := by
  have hall : ∀ c ∈ s, (decide (c ≠ sep)) = true := by
    intro c hc
    rw [decide_eq_true_eq]
    rintro rfl
    exact h hc
  exact List.takeWhile_append_of_pos hall

theorem before_of_notMem {t : Text} (h : sep ∉ t) : before sep t = t := by
  have hall := before_append h []
  have hnil : before sep [] = [] := rfl
  rwa [hnil, List.append_nil] at hall

theorem before_append_self {s : Text} (h : sep ∉ s) (t : Text) :
    before sep (s ++ sep :: t) = s := by
  rw [before_append h]
  unfold before
  rw [List.takeWhile_cons_of_neg (by simp), List.append_nil]

-- ==================================================================== endings

/-- Taking a lead off succeeds exactly when the text begins with it. -/
theorem dropLead?_eq_some {lead t rest : Text} :
    dropLead? lead t = some rest ↔ t = lead ++ rest := by
  induction lead generalizing t with
  | nil => simp [dropLead?, eq_comm]
  | cons a lead ih =>
      cases t with
      | nil => simp [dropLead?]
      | cons b t =>
          rw [dropLead?, List.cons_append, List.cons.injEq]
          by_cases hab : a = b
          · rw [if_pos hab, ih]
            simp [hab]
          · rw [if_neg hab]
            simp [Ne.symm hab]

/-- A text ends with a tail when the tail is a suffix of it. -/
theorem endsWith_iff {t tail : Text} : endsWith t tail = true ↔ tail <:+ t := by
  unfold endsWith dropTail?
  rw [Option.isSome_map, Option.isSome_iff_exists]
  constructor
  · intro h
    obtain ⟨rest, h⟩ := h
    have ht := congrArg List.reverse (dropLead?_eq_some.1 h)
    rw [List.reverse_reverse, List.reverse_append, List.reverse_reverse] at ht
    exact ⟨rest.reverse, ht.symm⟩
  · intro h
    obtain ⟨front, rfl⟩ := h
    exact ⟨front.reverse, dropLead?_eq_some.2 (List.reverse_append ..)⟩

end Text

end SourceDigest
