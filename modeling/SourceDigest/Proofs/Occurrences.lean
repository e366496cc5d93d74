/-
The elements of a list at their first occurrence.

One more element at the end of a list is taken unless it is there already
(`firstOccurrences_concat`), and by induction from the end everything else
follows: the result has the members of the list, each once, and what
brings nothing new changes nothing (`firstOccurrences_append_of_subset`).
Selecting elements before or after makes no difference
(`filter_firstOccurrences`), and neither does mapping them if the images tell
them apart (`map_firstOccurrences`).
-/
import Mathlib
import SourceDigest.Entity

namespace SourceDigest

variable {α : Type} [DecidableEq α]

/-- An element at the end stays if it is new. -/
private theorem firstOccurrences_snoc (xs : List α) (x : α) :
    firstOccurrences (xs ++ [x])
      = if x ∈ firstOccurrences xs then firstOccurrences xs
        else firstOccurrences xs ++ [x] := by
  unfold firstOccurrences
  rw [List.foldl_append, List.foldl_cons, List.foldl_nil]

/-- Nothing is lost. -/
theorem mem_firstOccurrences {xs : List α} {y : α} :
    y ∈ firstOccurrences xs ↔ y ∈ xs := by
  induction xs using List.reverseRecOn with
  | nil => rfl
  | append_singleton xs x ih =>
      rw [firstOccurrences_snoc, List.mem_append, List.mem_singleton]
      split
      · rename_i hx
        rw [ih]
        exact ⟨Or.inl, fun hy => hy.elim id fun he => he ▸ ih.1 (he ▸ hx)⟩
      · rw [List.mem_append, List.mem_singleton, ih]

/-- An element at the end is taken unless it is there already. -/
theorem firstOccurrences_concat (xs : List α) (x : α) :
    firstOccurrences (xs ++ [x])
      = if x ∈ xs then firstOccurrences xs else firstOccurrences xs ++ [x] := by
  rw [firstOccurrences_snoc]
  simp only [mem_firstOccurrences]

/-- Nothing is kept twice. -/
theorem nodup_firstOccurrences (xs : List α) : (firstOccurrences xs).Nodup := by
  induction xs using List.reverseRecOn with
  | nil => exact List.nodup_nil
  | append_singleton xs x ih =>
      rw [firstOccurrences_concat]
      split
      · exact ih
      · rename_i hx
        rw [← List.concat_eq_append]
        exact ih.concat fun h => hx (mem_firstOccurrences.1 h)

/-- Without repetitions every element is a first occurrence. -/
theorem firstOccurrences_of_nodup {xs : List α} (h : xs.Nodup) :
    firstOccurrences xs = xs := by
  induction xs using List.reverseRecOn with
  | nil => rfl
  | append_singleton xs x ih =>
      rw [← List.concat_eq_append, List.nodup_concat] at h
      rw [firstOccurrences_concat, if_neg h.1, ih h.2]

/-- What is there already brings nothing new. -/
theorem firstOccurrences_append_of_subset {xs ys : List α} (h : ys ⊆ xs) :
    firstOccurrences (xs ++ ys) = firstOccurrences xs := by
  induction ys using List.reverseRecOn with
  | nil => rw [List.append_nil]
  | append_singleton ys y ih =>
      have hys : ys ⊆ xs := fun z hz => h (List.mem_append_left _ hz)
      have hy : y ∈ xs ++ ys :=
        List.mem_append_left _ (h (List.mem_append_right _ (by simp)))
      rw [← List.append_assoc, firstOccurrences_concat, if_pos hy, ih hys]

/-- A list behind another brings what the other does not have. -/
theorem firstOccurrences_append (xs ys : List α) :
    firstOccurrences (xs ++ ys)
      = firstOccurrences xs ++ (firstOccurrences ys).filter (· ∉ xs) := by
  induction ys using List.reverseRecOn with
  | nil => simp [firstOccurrences]
  | append_singleton ys y ih =>
      rw [← List.append_assoc, firstOccurrences_concat, firstOccurrences_concat, ih]
      by_cases hys : y ∈ ys
      · rw [if_pos (List.mem_append_right xs hys), if_pos hys]
      · rw [if_neg hys, List.filter_append, ← List.append_assoc]
        by_cases hxs : y ∈ xs <;> simp [hxs, hys]

/-- What is kept keeps its order. -/
theorem firstOccurrences_sublist (xs : List α) : (firstOccurrences xs).Sublist xs := by
  induction xs using List.reverseRecOn with
  | nil => exact List.Sublist.refl _
  | append_singleton xs x ih =>
      rw [firstOccurrences_concat]
      split
      · exact ih.trans (List.sublist_append_left ..)
      · exact ih.append (List.Sublist.refl _)

/-- Selecting comes to the same before and after. -/
theorem filter_firstOccurrences (p : α → Bool) (xs : List α) :
    (firstOccurrences xs).filter p = firstOccurrences (xs.filter p) := by
  induction xs using List.reverseRecOn with
  | nil => rfl
  | append_singleton xs x ih =>
      rw [firstOccurrences_concat, List.filter_append]
      by_cases hp : p x = true
      · rw [List.filter_cons_of_pos hp, List.filter_nil, firstOccurrences_concat, ← ih]
        by_cases hx : x ∈ xs <;> simp [hx, hp]
      · rw [List.filter_cons_of_neg hp, List.filter_nil, List.append_nil, ← ih]
        split <;> simp [hp]

section

variable {β : Type} [DecidableEq β]

/-- What is repeated adds nothing to the images. -/
theorem firstOccurrences_map_firstOccurrences (f : α → β) (xs : List α) :
    firstOccurrences ((firstOccurrences xs).map f) = firstOccurrences (xs.map f) := by
  induction xs using List.reverseRecOn with
  | nil => rfl
  | append_singleton xs x ih =>
      have himages : f x ∈ (firstOccurrences xs).map f ↔ f x ∈ xs.map f := by
        simp only [List.mem_map, mem_firstOccurrences]
      rw [firstOccurrences_concat, List.map_append, List.map_singleton,
        firstOccurrences_concat, ← ih]
      by_cases hx : x ∈ xs
      · rw [if_pos hx, if_pos (List.mem_map_of_mem hx)]
      · rw [if_neg hx, List.map_append, List.map_singleton, firstOccurrences_concat]
        simp only [himages]

/-- Elements that their images tell apart occur first where these do. -/
theorem map_firstOccurrences {f : α → β} {xs : List α}
    (hf : ∀ x ∈ xs, ∀ y ∈ xs, f x = f y → x = y) :
    (firstOccurrences xs).map f = firstOccurrences (xs.map f) := by
  have hnodup : ((firstOccurrences xs).map f).Nodup :=
    (nodup_firstOccurrences xs).map_on fun x hx y hy =>
      hf x (mem_firstOccurrences.1 hx) y (mem_firstOccurrences.1 hy)
  rw [← firstOccurrences_map_firstOccurrences, firstOccurrences_of_nodup hnodup]

end

/-- There are as many first occurrences as there are members. -/
theorem length_firstOccurrences_congr {xs ys : List α} (h : ∀ x, x ∈ xs ↔ x ∈ ys) :
    (firstOccurrences xs).length = (firstOccurrences ys).length := by
  refine ((List.perm_ext_iff_of_nodup (nodup_firstOccurrences xs)
    (nodup_firstOccurrences ys)).2 fun x => ?_).length_eq
  rw [mem_firstOccurrences, mem_firstOccurrences, h]

/-- Of lists that are all empty or one and the same the latter gives the first
occurrences, however often it is there. -/
theorem firstOccurrences_flatMap_of_eq {β : Type} {zs : List β} {z : β}
    {f : β → List α} {xs : List α} (hall : ∀ z ∈ zs, f z = [] ∨ f z = xs)
    (hz : z ∈ zs) (hf : f z = xs) :
    firstOccurrences (zs.flatMap f) = firstOccurrences xs := by
  induction zs using List.reverseRecOn generalizing z with
  | nil => cases hz
  | append_singleton zs y ih =>
      have hzs : ∀ z ∈ zs, f z = [] ∨ f z = xs := fun z hz =>
        hall z (List.mem_append_left _ hz)
      rw [List.flatMap_append, List.flatMap_cons, List.flatMap_nil,
        List.append_nil]
      by_cases hbefore : ∃ z ∈ zs, f z = xs
      · obtain ⟨z', hz', hf'⟩ := hbefore
        rw [firstOccurrences_append_of_subset, ih hzs hz' hf']
        intro a ha
        rcases hall y (by simp) with hy | hy
        · rw [hy] at ha
          cases ha
        · exact List.mem_flatMap.2 ⟨z', hz', by rwa [hf', ← hy]⟩
      · have hnil : zs.flatMap f = [] := List.flatMap_eq_nil_iff.2 fun x hx =>
          (hzs x hx).resolve_right fun he => hbefore ⟨x, hx, he⟩
        rcases List.mem_append.1 hz with hz | hz
        · exact absurd ⟨z, hz, hf⟩ hbefore
        · rw [List.mem_singleton] at hz
          rw [hnil, List.nil_append, ← hz, hf]

end SourceDigest
