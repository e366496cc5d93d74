/-
Sorting by keys: what a sorted list owes to its members alone.

A comparison may look at a part of its arguments only, as the order of
paths looks at their parts and the order of scores at score and path. It
compares by keys (`ComparesBy`), and sorting settles a list by its members
as soon as no two of them share a key: whichever order they came in, the
sorted lists are one (`mergeSort_eq_of_perm`), every list of them that is
sorted is that one (`eq_mergeSort`), and in it each key stands strictly
before the next (`pairwise_lt_mergeSort`).
-/
import Mathlib

namespace SourceDigest

variable {α κ : Type} [LinearOrder κ]

/-- A comparison that compares the keys of its arguments. -/
def ComparesBy (le : α → α → Bool) (key : α → κ) : Prop :=
  ∀ a b, le a b = true ↔ key a ≤ key b

namespace ComparesBy

variable {le : α → α → Bool} {key : α → κ} {l l' : List α}

theorem le_trans (h : ComparesBy le key) (a b c : α) (hab : le a b = true)
    (hbc : le b c = true) : le a c = true :=
  (h a c).2 (((h a b).1 hab).trans ((h b c).1 hbc))

theorem le_total (h : ComparesBy le key) (a b : α) :
    (le a b || le b a) = true := by
  rw [Bool.or_eq_true, h a b, h b a]
  exact Std.le_total

/-- Sorting puts smaller keys in front. -/
theorem pairwise_mergeSort (h : ComparesBy le key) (l : List α) :
    (l.mergeSort le).Pairwise fun a b => le a b = true :=
  List.pairwise_mergeSort h.le_trans h.le_total l

/-- When no two members share a key, sorted means strictly sorted. -/
theorem pairwise_lt_mergeSort (h : ComparesBy le key)
    (hnodup : (l.map key).Nodup) :
    (l.mergeSort le).Pairwise fun a b => key a < key b := by
  have hkeys : ((l.mergeSort le).map key).Nodup :=
    ((List.mergeSort_perm l le).map key).nodup_iff.2 hnodup
  have hne := List.pairwise_map.1 hkeys
  exact (h.pairwise_mergeSort l).imp₂
    (fun a b hle hne => lt_of_le_of_ne ((h a b).1 hle) hne) hne

/-- The only sorted list of some members that share no key is the one that
sorting gives. -/
theorem eq_mergeSort (h : ComparesBy le key) (hnodup : (l.map key).Nodup)
    (hperm : l'.Perm l) (hsorted : l'.Pairwise fun a b => le a b = true) :
    l' = l.mergeSort le := by
  have hsame := hperm.trans (List.mergeSort_perm l le).symm
  refine List.Perm.eq_of_pairwise ?_ hsorted (h.pairwise_mergeSort l) hsame
  intro a b ha hb hab hba
  rw [List.mem_mergeSort] at hb
  exact List.inj_on_of_nodup_map hnodup (hperm.mem_iff.1 ha) hb
    (le_antisymm ((h a b).1 hab) ((h b a).1 hba))

/-- In which order the members come makes no difference. -/
theorem mergeSort_eq_of_perm (h : ComparesBy le key)
    (hnodup : (l.map key).Nodup) (hperm : l.Perm l') :
    l.mergeSort le = l'.mergeSort le :=
  (h.eq_mergeSort hnodup ((List.mergeSort_perm l' le).trans hperm.symm)
    (h.pairwise_mergeSort l')).symm

end ComparesBy

end SourceDigest
