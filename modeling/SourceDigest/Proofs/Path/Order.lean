/-
The order of paths is a linear order of their parts.

Texts are ordered as lists of characters, and parts as pairs of a rank and
a text (`Part.key`), so lists of parts are ordered as the list library
orders lists of such pairs (`partsLe_iff`). Laws of orders then need no
proof of their own, but that paths are told apart by their parts only: two
spellings of the same parts stand in no order (`Lt`), and sorting settles
a list by its members only when these differ in their parts
(`mergeSort_eq_of_perm`).
-/
import Mathlib
import SourceDigest.Path
import SourceDigest.Proofs.Sorting

namespace SourceDigest

-- ===================================================================== texts

/-- The order of texts is that of lists of characters. -/
theorem Text.le_iff {s t : Text} : Text.le s t = true ↔ s ≤ t := by
  rw [← not_lt]
  induction s generalizing t with
  | nil => simp [Text.le]
  | cons a s ih =>
      cases t with
      | nil => simp [Text.le]
      | cons b t =>
          rw [Text.le, List.cons_lt_cons_iff, Bool.or_eq_true, Bool.and_eq_true,
            ih, decide_eq_true_iff, beq_iff_eq, not_or, not_and]
          show a < b ∨ a = b ∧ _ ↔ _
          constructor
          · intro h
            rcases h with h | ⟨rfl, h⟩
            · exact ⟨not_lt_of_gt h, fun he => absurd he (ne_of_gt h)⟩
            · exact ⟨lt_irrefl a, fun _ => h⟩
          · intro h
            obtain ⟨hlt, heq⟩ := h
            rcases lt_or_eq_of_le (not_lt.1 hlt) with h | rfl
            · exact Or.inl h
            · exact Or.inr ⟨rfl, heq rfl⟩

namespace Path

-- ===================================================================== parts

/-- The text of a part that is a name. -/
def Part.nameText : Part → Text
  | .name n => n
  | _ => []

/-- What parts are compared by. -/
def Part.key (a : Part) : ℕ ×ₗ Text := toLex (a.rank, a.nameText)

/-- A part is told by its key. -/
theorem Part.key_injective : Function.Injective Part.key := by
  intro a b h
  have h := Prod.ext_iff.1 (toLex.injective h)
  cases a <;> cases b <;> simp_all [Part.rank, Part.nameText]

theorem Part.le_iff {a b : Part} : a.le b = true ↔ a.key ≤ b.key := by
  unfold Part.key
  rw [Prod.Lex.toLex_le_toLex]
  cases a <;> cases b <;> simp [Part.le, Part.rank, Part.nameText, Text.le_iff]

/-- The order of lists of parts is that of lists of what they are compared
by. -/
theorem partsLe_iff {ps qs : List Part} :
    partsLe ps qs = true ↔ ps.map Part.key ≤ qs.map Part.key := by
  rw [← not_lt]
  induction ps generalizing qs with
  | nil => simp [partsLe]
  | cons a ps ih =>
      cases qs with
      | nil => simp [partsLe]
      | cons b qs =>
          rw [partsLe, List.map_cons, List.map_cons, List.cons_lt_cons_iff]
          by_cases hab : a = b
          · subst hab
            simp [ih]
          · have hne : b.key ≠ a.key := fun h => hab (Part.key_injective h).symm
            rw [if_neg hab, Part.le_iff, not_or, not_lt]
            exact ⟨fun h => ⟨h, fun hk => absurd hk.1 hne⟩, And.left⟩

-- ===================================================================== paths

/-- The order of paths, as one of lists of what their parts are compared
by. -/
theorem le_iff {p q : Path} :
    le p q = true ↔ (parts p).map Part.key ≤ (parts q).map Part.key :=
  partsLe_iff

/-- What a path is compared by. -/
def key (p : Path) : List (ℕ ×ₗ Text) := (parts p).map Part.key

theorem comparesBy_key : ComparesBy le key := fun _ _ => le_iff

/-- Paths of different parts have different keys. -/
theorem nodup_map_key {ps : List Path} (h : (ps.map parts).Nodup) :
    (ps.map key).Nodup := by
  have hmap := h.map (List.map_injective_iff.2 Part.key_injective)
  rwa [List.map_map] at hmap

/-- Whether a path comes strictly before another. -/
def Lt (p q : Path) : Prop := le p q = true ∧ le q p = false

instance (p q : Path) : Decidable (Lt p q) :=
  inferInstanceAs (Decidable (_ ∧ _))

/-- So one path stands before another if its key is the smaller. -/
theorem lt_iff {p q : Path} : Lt p q ↔ key p < key q := by
  unfold Lt
  rw [Bool.eq_false_iff, ne_eq, comparesBy_key p q, comparesBy_key q p]
  exact (lt_iff_le_not_ge).symm

-- =================================================================== sorting

/-- Sorted paths come one strictly after the other, when no two have the
same parts. -/
theorem pairwise_lt_mergeSort {ps : List Path} (h : (ps.map parts).Nodup) :
    (ps.mergeSort le).Pairwise Lt :=
  (comparesBy_key.pairwise_lt_mergeSort (nodup_map_key h)).imp fun hlt =>
    lt_iff.2 hlt

/-- What paths are found, not in which order, settles the sorted list, when
no two have the same parts. -/
theorem mergeSort_eq_of_perm {ps qs : List Path} (hperm : ps.Perm qs)
    (h : (ps.map parts).Nodup) : ps.mergeSort le = qs.mergeSort le :=
  comparesBy_key.mergeSort_eq_of_perm (nodup_map_key h) hperm

/-- What remains of a sorted list is sorted. -/
theorem mergeSort_filter {ps : List Path} (p : Path → Bool)
    (h : (ps.map parts).Nodup) :
    (ps.filter p).mergeSort le = (ps.mergeSort le).filter p := by
  have hsub : ((ps.filter p).map parts).Sublist (ps.map parts) :=
    List.filter_sublist.map parts
  exact (comparesBy_key.eq_mergeSort (nodup_map_key (h.sublist hsub))
    ((List.mergeSort_perm ps le).filter p)
    ((comparesBy_key.pairwise_mergeSort ps).filter p)).symm

end Path

end SourceDigest
