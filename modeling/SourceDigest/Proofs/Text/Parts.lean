/-
Parts of a text: what it holds, and what trimming and splitting make of them.

A text holds a needle when the needle is a part of it (`holds_iff`). Trimming
takes away blanks alone, so a needle without blanks is held by the trimmed text
exactly when it is held by the whole (`isInfix_trim_iff`). The pieces of a part
are not pieces of the whole, since the first and the last may be cut short, but
each of them is a part of a piece of its own (`partsOf_splitOn`); `PartsOf` is
that relation between lists of texts.
-/
import Mathlib
import SourceDigest.Proofs.Text.Blanks
import SourceDigest.Proofs.Text.Pieces

namespace SourceDigest

namespace Text

variable {needle t u : Text} {p : Char → Bool} {sep : Char}

-- ==================================================================== holding

/-- A needle can be taken off the front where it stands there. -/
theorem dropLead?_isSome_iff : (dropLead? needle t).isSome = true ↔ needle <+: t := by
  rw [Option.isSome_iff_exists]
  constructor
  · rintro ⟨rest, h⟩
    exact ⟨rest, (dropLead?_eq_some.1 h).symm⟩
  · rintro ⟨rest, h⟩
    exact ⟨rest, dropLead?_eq_some.2 h.symm⟩

/-- A text holds what is a part of it. -/
theorem holds_iff : holds t needle = true ↔ needle <:+: t := by
  unfold holds
  induction t with
  | nil =>
      rw [cut?, List.infix_nil]
      cases needle <;> simp
  | cons c t ih =>
      rw [List.infix_cons_iff, ← dropLead?_isSome_iff, ← ih, cut?]
      cases dropLead? needle (c :: t) with
      | none => simp
      | some tail => simp

/-- What stands in front of a needle is a beginning. -/
theorem cut?_fst_isPrefix {found : Text × Text} (h : cut? needle t = some found) :
    found.1 <+: t := by
  induction t generalizing found with
  | nil =>
      rw [cut?] at h
      split at h
      · obtain rfl := Option.some.inj h
        exact List.nil_prefix
      · cases h
  | cons c t ih =>
      rw [cut?] at h
      split at h
      · obtain rfl := Option.some.inj h
        exact List.nil_prefix
      · obtain ⟨rest, hrest, rfl⟩ := Option.map_eq_some_iff.1 h
        exact (List.prefix_cons_inj c).2 (ih hrest)

-- =================================================================== trimming

theorem trim_isInfix (t : Text) : trim t <:+: t :=
  (trimEndOf_isPrefix isBlank _).isInfix.trans (List.dropWhile_suffix _).isInfix

/-- What may go from the front has no part in a needle that may not. -/
theorem isInfix_dropWhile (hne : needle ≠ [])
    (hneedle : ∀ c ∈ needle, p c = false) (h : needle <:+: t) :
    needle <:+: t.dropWhile p := by
  induction t with
  | nil => exact h
  | cons c t ih =>
      by_cases hc : p c = true
      · rw [List.dropWhile_cons_of_pos hc]
        refine ih ((List.infix_cons_iff.1 h).resolve_left ?_)
        rintro ⟨rest, hrest⟩
        obtain ⟨d, needle, rfl⟩ := List.exists_cons_of_ne_nil hne
        obtain rfl := (List.cons.inj hrest).1
        rw [hneedle d (List.mem_cons_self ..)] at hc
        cases hc
      · rwa [List.dropWhile_cons_of_neg hc]

/-- What may go from the end has no part in it either. -/
theorem isInfix_trimEndOf (hne : needle ≠ [])
    (hneedle : ∀ c ∈ needle, p c = false) (h : needle <:+: t) :
    needle <:+: trimEndOf p t := by
  have hback : needle.reverse <:+: t.reverse.dropWhile p :=
    isInfix_dropWhile (by simpa using hne)
      (fun c hc => hneedle c (List.mem_reverse.1 hc)) (List.reverse_infix.2 h)
  rw [← List.reverse_infix, List.reverse_reverse] at hback
  exact hback

/-- A needle without blanks is not trimmed away. -/
theorem isInfix_trim_iff (hne : needle ≠ [])
    (hneedle : ∀ c ∈ needle, isBlank c = false) :
    needle <:+: trim t ↔ needle <:+: t := by
  refine ⟨fun h => h.trans (trim_isInfix t), fun h => ?_⟩
  exact isInfix_trimEndOf hne hneedle (isInfix_dropWhile hne hneedle h)

/-- What is trimmed away are blanks on both sides. -/
theorem exists_eq_trim (t : Text) :
    ∃ front back, t = front ++ trim t ++ back ∧ (∀ c ∈ front, isBlank c = true)
      ∧ ∀ c ∈ back, isBlank c = true := by
  refine ⟨t.takeWhile isBlank, ((t.dropWhile isBlank).reverse.takeWhile isBlank).reverse,
    ?_, fun c => List.mem_takeWhile_imp,
    fun c hc => List.mem_takeWhile_imp (List.mem_reverse.1 hc)⟩
  show t = t.takeWhile isBlank ++ ((t.dropWhile isBlank).reverse.dropWhile isBlank).reverse
    ++ ((t.dropWhile isBlank).reverse.takeWhile isBlank).reverse
  rw [List.append_assoc, ← List.reverse_append, List.takeWhile_append_dropWhile,
    List.reverse_reverse, List.takeWhile_append_dropWhile]

-- ===================================================================== pieces

/-- Texts that are parts of different ones of others, in their order. -/
def PartsOf (ts us : List Text) : Prop := List.SublistForall₂ (· <:+: ·) ts us

namespace PartsOf

variable {ts us vs ts' us' : List Text}

theorem nil (us : List Text) : PartsOf [] us := List.SublistForall₂.nil

theorem refl (ts : List Text) : PartsOf ts ts := by
  induction ts with
  | nil => exact .nil []
  | cons t ts ih => exact List.SublistForall₂.cons List.infix_rfl ih

/-- Parts of parts are parts. -/
theorem trans (h : PartsOf ts us) (h' : PartsOf us vs) : PartsOf ts vs := by
  have htexts : IsTrans Text (· <:+: ·) := ⟨fun _ _ _ => List.IsInfix.trans⟩
  have hlists : IsTrans (List Text) (List.SublistForall₂ (· <:+: ·)) :=
    List.SublistForall₂.is_trans
  exact hlists.trans _ _ _ h h'

theorem cons (htu : t <:+: u) (h : PartsOf ts us) : PartsOf (t :: ts) (u :: us) :=
  List.SublistForall₂.cons htu h

theorem skip (u : Text) (h : PartsOf ts us) : PartsOf ts (u :: us) :=
  List.SublistForall₂.cons_right h

/-- Two lists of parts, one after the other, are parts of two lists. -/
theorem append (h : PartsOf ts us) (h' : PartsOf ts' us') :
    PartsOf (ts ++ ts') (us ++ us') := by
  induction h with
  | @nil us =>
      induction us with
      | nil => exact h'
      | cons u us ih => exact ih.skip u
  | cons htu _ ih => exact ih.cons htu
  | cons_right _ ih => exact ih.skip _

theorem length_le (h : PartsOf ts us) : ts.length ≤ us.length := by
  induction h with
  | nil => exact Nat.zero_le _
  | cons _ _ ih => exact Nat.succ_le_succ ih
  | cons_right _ ih => exact ih.trans (Nat.le_succ _)

end PartsOf

/-- Two texts in a row: the last piece of one and the first of the other make
up one piece. -/
theorem exists_splitOn_append (sep : Char) (t u : Text) :
    ∃ ps p q qs, splitOn sep t = ps ++ [p] ∧ splitOn sep u = q :: qs
      ∧ splitOn sep (t ++ u) = ps ++ (p ++ q) :: qs := by
  induction t with
  | nil =>
      obtain ⟨q, qs, hu⟩ := List.exists_cons_of_ne_nil (splitOn_ne_nil sep u)
      exact ⟨[], [], q, qs, rfl, hu, hu⟩
  | cons c t ih =>
      obtain ⟨ps, p, q, qs, ht, hu, htu⟩ := ih
      by_cases hc : c = sep
      · refine ⟨[] :: ps, p, q, qs, ?_, hu, ?_⟩
        · rw [splitOn, if_pos hc, ht]
          rfl
        · rw [List.cons_append, splitOn, if_pos hc, htu]
          rfl
      · cases ps with
        | nil =>
            refine ⟨[], c :: p, q, qs, ?_, hu, ?_⟩
            · rw [splitOn, if_neg hc, ht]
              rfl
            · rw [List.cons_append, splitOn, if_neg hc, htu]
              rfl
        | cons r ps =>
            refine ⟨(c :: r) :: ps, p, q, qs, ?_, hu, ?_⟩
            · rw [splitOn, if_neg hc, ht]
              rfl
            · rw [List.cons_append, splitOn, if_neg hc, htu]
              rfl

/-- The pieces of a part of a text are parts of different pieces of it. -/
theorem partsOf_splitOn (h : t <:+: u) :
    PartsOf (splitOn sep t) (splitOn sep u) := by
  obtain ⟨front, back, rfl⟩ := h
  have hfront : PartsOf (splitOn sep t) (splitOn sep (front ++ t)) := by
    obtain ⟨ps, p, q, qs, -, ht, hwhole⟩ := exists_splitOn_append sep front t
    rw [ht, hwhole]
    exact (PartsOf.nil ps).append
      (.cons (List.suffix_append p q).isInfix (.refl qs))
  have hback : PartsOf (splitOn sep (front ++ t))
      (splitOn sep (front ++ t ++ back)) := by
    obtain ⟨ps, p, q, qs, ht, -, hwhole⟩ :=
      exists_splitOn_append sep (front ++ t) back
    rw [ht, hwhole]
    exact (PartsOf.refl ps).append
      (.cons (List.prefix_append p q).isInfix (.nil qs))
  exact hfront.trans hback

/-- What is in a piece is in the text. -/
theorem mem_of_mem_splitOn {p : Text} {c : Char} (hp : p ∈ splitOn sep t) (hc : c ∈ p) :
    c ∈ t := by
  induction t generalizing p with
  | nil =>
      rw [splitOn, List.mem_singleton] at hp
      exact hp ▸ hc
  | cons d t ih =>
      obtain ⟨q, qs, ht⟩ := List.exists_cons_of_ne_nil (splitOn_ne_nil sep t)
      rw [splitOn, ht] at hp
      rw [ht] at ih
      split at hp
      · rcases List.mem_cons.1 hp with rfl | hp
        · exact absurd hc List.not_mem_nil
        · exact List.mem_cons_of_mem d (ih hp hc)
      · rcases List.mem_cons.1 hp with rfl | hp
        · exact (List.mem_cons.1 hc).elim (fun h => h ▸ List.mem_cons_self ..) fun h =>
            List.mem_cons_of_mem d (ih (List.mem_cons_self ..) h)
        · exact List.mem_cons_of_mem d (ih (List.mem_cons_of_mem q hp) hc)

/-- There is one more piece than there are separators. -/
theorem length_splitOn (sep : Char) (t : Text) :
    (splitOn sep t).length = t.count sep + 1 := by
  induction t with
  | nil => rfl
  | cons c t ih =>
      rw [splitOn, List.count_cons]
      by_cases hc : c = sep
      · rw [if_pos hc, List.length_cons, ih, if_pos (beq_iff_eq.2 hc)]
      · rw [if_neg hc, if_neg (by simpa using hc), Nat.add_zero, ← ih]
        cases h : splitOn sep t with
        | nil => exact absurd h (splitOn_ne_nil sep t)
        | cons piece more => rfl

end Text

end SourceDigest
