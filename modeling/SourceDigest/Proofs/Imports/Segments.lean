/-
The segments of a module path and its beginnings.

Segments that are joined by double colons are found again
(`segments_join`), and of the beginnings of a path it is enough to know how
those of two lists make up those of the whole (`leadingParts_append`).
-/
import Mathlib
import SourceDigest.Imports.Specifier
import SourceDigest.Proofs.Path.Below

namespace SourceDigest

namespace Specifier

-- =================================================================== segments

/-- What may stand between the double colons of a module path. -/
structure IsSegment (s : Text) : Prop extends Path.IsName s where
  notMem_colon : ':' ∉ s

instance (s : Text) : Decidable (IsSegment s) :=
  decidable_of_iff (Path.IsName s ∧ ':' ∉ s)
    ⟨fun h => ⟨h.1, h.2⟩, fun h => ⟨h.toIsName, h.notMem_colon⟩⟩

theorem splitColons_of_notMem {t : Text} (h : ':' ∉ t) :
    splitColons t = [t] := by
  induction t with
  | nil => rfl
  | cons c t ih =>
      rw [List.mem_cons, not_or] at h
      rw [splitColons.eq_3 _ _ fun rest hc => absurd hc.symm h.1, ih h.2]

/-- The first piece in front of a double colon. -/
theorem splitColons_append {s : Text} (h : ':' ∉ s) (t : Text) :
    splitColons (s ++ ':' :: ':' :: t) = s :: splitColons t := by
  induction s with
  | nil => rfl
  | cons c s ih =>
      rw [List.mem_cons, not_or] at h
      rw [List.cons_append,
        splitColons.eq_3 _ _ fun rest hc => absurd hc.symm h.1, ih h.2]

/-- Pieces that are joined by double colons are found again. -/
theorem splitColons_join {ps : List Text} (h : ∀ p ∈ ps, ':' ∉ p)
    (hne : ps ≠ []) : splitColons (Text.join "::" ps) = ps := by
  induction ps with
  | nil => exact absurd rfl hne
  | cons p ps ih =>
      have hp := h p (List.mem_cons_self ..)
      by_cases hnil : ps = []
      · rw [hnil, Text.join_singleton, splitColons_of_notMem hp]
      · rw [Text.join_cons _ _ hnil, List.append_assoc]
        show splitColons (p ++ ':' :: ':' :: Text.join "::" ps) = _
        rw [splitColons_append hp,
          ih (fun q hq => h q (List.mem_cons_of_mem _ hq)) hnil]

/-- The segments of a module path are found again. -/
theorem segments_join {ps : List Text} (h : ∀ p ∈ ps, IsSegment p)
    (hne : ps ≠ []) :
    (splitColons (Text.join "::" ps)).filter (· ≠ []) = ps := by
  rw [splitColons_join (fun p hp => (h p hp).notMem_colon) hne]
  exact List.filter_eq_self.2 fun p hp => decide_eq_true (h p hp).ne_nil

/-- All that a path has of the word `super` in front is dropped. -/
theorem dropWhile_super {segments : List Text}
    (h : segments.head? ≠ some "super".toList) (k : Nat) :
    (List.replicate k "super".toList ++ segments).dropWhile
      (· = ("super" : Text)) = segments := by
  rw [List.dropWhile_append_of_pos fun s hs =>
    decide_eq_true (List.eq_of_mem_replicate hs)]
  cases segments with
  | nil => rfl
  | cons s rest =>
      refine List.dropWhile_cons_of_neg ?_
      rw [decide_eq_true_eq]
      rintro rfl
      exact h rfl

/-- A path whose first segment is another word does not declare a module. -/
theorem dropLead?_mod_join {c : Char} (hc : c ≠ 'm') (t : Text)
    (ps : List Text) :
    Text.dropLead? "mod " (Text.join "::" ((c :: t) :: ps)) = none := by
  have hlead : ∀ rest, Text.dropLead? "mod " (c :: rest) = none :=
    fun rest => if_neg (Ne.symm hc)
  cases ps with
  | nil => exact hlead t
  | cons p ps => exact hlead _

-- ================================================================= beginnings

section

variable {α : Type} {xs ys p : List α}

/-- The beginnings of two lists, the longest first: those that reach into
the second, and those of the first. -/
theorem leadingParts_append (xs ys : List α) :
    leadingParts (xs ++ ys)
      = (leadingParts ys).map (xs ++ ·) ++ leadingParts xs := by
  unfold leadingParts
  rw [List.length_append, List.range_add, List.map_append, List.reverse_append,
    List.map_reverse, List.map_map, List.map_map]
  congr 2
  · refine List.map_congr_left fun n _ => ?_
    show (xs ++ ys).take (xs.length + n + 1) = xs ++ ys.take (n + 1)
    rw [Nat.add_assoc, List.take_length_add_append]
  · refine List.map_congr_left fun n hn => ?_
    have hlt := List.mem_range.1 hn
    exact List.take_append_of_le_length (by omega)

/-- The longest beginning is the whole. -/
theorem leadingParts_of_ne_nil (hne : xs ≠ []) :
    leadingParts xs = xs :: leadingParts xs.dropLast := by
  obtain ⟨front, a, rfl⟩ := (List.eq_nil_or_concat' xs).resolve_left hne
  rw [leadingParts_append, List.dropLast_concat]
  rfl

/-- The leading parts of a path are its front parts, but for the empty one. -/
theorem mem_leadingParts : p ∈ leadingParts xs ↔ p ≠ [] ∧ p <+: xs := by
  unfold leadingParts
  rw [List.mem_reverse, List.mem_map]
  constructor
  · rintro ⟨n, hn, rfl⟩
    have hlt := List.mem_range.1 hn
    refine ⟨?_, List.take_prefix ..⟩
    rw [ne_eq, List.take_eq_nil_iff]
    rintro (h | rfl)
    · omega
    · exact absurd hlt (Nat.not_lt_zero n)
  · rintro ⟨hne, hp⟩
    have hpos := List.length_pos_iff.2 hne
    refine ⟨p.length - 1, List.mem_range.2 ?_, ?_⟩
    · have := hp.length_le
      omega
    · rw [Nat.sub_add_cancel hpos]
      exact (List.prefix_iff_eq_take.1 hp).symm

end

end Specifier

end SourceDigest
