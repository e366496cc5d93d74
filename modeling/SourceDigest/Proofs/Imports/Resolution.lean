/-
Resolution finds files of the repository, and does not ask in which order
they were given.

Every way to a file ends at a member of the index (`mem_of_target?`):
locations are looked for among the files, and a bare name chooses from
them. Which one it chooses is settled by a rank in which no two files are
equal (`rank_injective`), so the choice is the greatest file of those that
the name may mean (`best?_eq_some_iff`), whatever their order and however
often each of them is there. An index is then as good as any other of the
same files (`resolve?_congr`).
-/
import Mathlib
import SourceDigest.Imports.FileIndex
import SourceDigest.Proofs.Path.Order

namespace SourceDigest

namespace FileIndex

variable {index : FileIndex} {files files' fs fs' : List Text}
  {spec dir importer key f g : Text} {s : Specifier}

-- ================================================================== the rank

/-- What files are compared by as answers to a bare name: whether their end
is like the specifier, how many directories they share with the importer,
and how early they stand among texts. -/
def rank (spec dir f : Text) : Bool ×ₗ ℕ ×ₗ Textᵒᵈ :=
  toLex (endsLike spec f,
    toLex (sharedSegments (parentDir f) dir, OrderDual.toDual f))

/-- No two files are equal in rank. -/
theorem rank_injective (spec dir : Text) :
    Function.Injective (rank spec dir) := by
  intro f g h
  have h := (Prod.ext_iff.1 (toLex.injective h)).2
  exact OrderDual.toDual.injective (Prod.ext_iff.1 (toLex.injective h)).2

/-- The better answer is the one of higher rank. -/
theorem isBetter_iff :
    isBetter spec dir f g = true ↔ rank spec dir g ≤ rank spec dir f := by
  unfold isBetter rank
  dsimp only
  rw [Prod.Lex.toLex_le_toLex, Prod.Lex.toLex_le_toLex]
  dsimp only
  rw [OrderDual.toDual_le_toDual, ← Text.le_iff]
  by_cases hends : endsLike spec f = endsLike spec g
  · by_cases hshared : sharedSegments (parentDir f) dir
        = sharedSegments (parentDir g) dir
    · simp [hends, hshared]
    · simp [hends, hshared, Ne.symm hshared]
  · cases hf : endsLike spec f <;> cases hg : endsLike spec g
    · exact absurd (hf.trans hg.symm) hends
    · simp
    · simp
    · exact absurd (hf.trans hg.symm) hends

theorem best?_eq_none_iff : best? spec dir fs = none ↔ fs = [] := by
  cases fs with
  | nil => exact ⟨fun _ => rfl, fun _ => rfl⟩
  | cons f fs =>
      rw [best?]
      cases best? spec dir fs <;> simp

/-- The best of several files is among them, and none of them is of higher
rank. -/
theorem mem_and_rank_le_of_best? (h : best? spec dir fs = some f) :
    f ∈ fs ∧ ∀ g ∈ fs, rank spec dir g ≤ rank spec dir f := by
  induction fs generalizing f with
  | nil => cases h
  | cons a fs ih =>
      rw [best?] at h
      cases hrest : best? spec dir fs with
      | none =>
          rw [hrest] at h
          cases h
          rw [best?_eq_none_iff.1 hrest]
          simp
      | some b =>
          obtain ⟨hb, hall⟩ := ih hrest
          rw [hrest] at h
          cases h
          split
          · rename_i hbetter
            have hle := isBetter_iff.1 hbetter
            refine ⟨List.mem_cons_self .., fun g hg => ?_⟩
            rcases List.mem_cons.1 hg with rfl | hg
            · exact le_refl _
            · exact (hall g hg).trans hle
          · rename_i hworse
            have hle : rank spec dir a ≤ rank spec dir b :=
              (le_total ..).resolve_right fun hge =>
                hworse (isBetter_iff.2 hge)
            refine ⟨List.mem_cons_of_mem _ hb, fun g hg => ?_⟩
            rcases List.mem_cons.1 hg with rfl | hg
            · exact hle
            · exact hall g hg

/-- The best of several files is the one of the highest rank. -/
theorem best?_eq_some_iff :
    best? spec dir fs = some f
      ↔ f ∈ fs ∧ ∀ g ∈ fs, rank spec dir g ≤ rank spec dir f := by
  refine ⟨mem_and_rank_le_of_best?, fun ⟨hf, hall⟩ => ?_⟩
  cases h : best? spec dir fs with
  | none =>
      rw [best?_eq_none_iff.1 h] at hf
      cases hf
  | some g =>
      obtain ⟨hg, hall'⟩ := mem_and_rank_le_of_best? h
      exact congrArg some (rank_injective spec dir
        (le_antisymm (hall g hg) (hall' f hf)))

/-- The best answer is settled by what files there are. -/
theorem best?_congr (h : ∀ f, f ∈ fs ↔ f ∈ fs') :
    best? spec dir fs = best? spec dir fs' := by
  refine Option.ext fun f => ?_
  rw [best?_eq_some_iff, best?_eq_some_iff, h]
  simp only [h]

-- =================================================================== members

/-- A file that is probed is one of the index. -/
theorem mem_of_probe? {path : Text} (h : index.probe? path = some f) :
    f ∈ index.files := by
  unfold probe? at h
  split at h
  · cases h
  · cases h
  · exact List.contains_iff_mem.1 (List.find?_some h)

/-- A file that a name may mean is one of the files. -/
theorem mem_of_mem_named (h : f ∈ index.named key) : f ∈ index.files := by
  unfold named at h
  split at h
  · exact List.mem_of_mem_filter h
  · exact List.mem_of_mem_filter h

theorem mem_of_lookup? (h : index.lookup? spec importer = some f) :
    f ∈ index.files := by
  unfold lookup? at h
  dsimp only at h
  split at h
  · cases h
  · exact mem_of_mem_named
      (List.mem_of_mem_filter (mem_and_rank_le_of_best? h).1)

/-- So is a file that a specifier is resolved to. -/
theorem mem_of_resolve? (h : index.resolve? importer s = some f) :
    f ∈ index.files := by
  cases s with
  | relative spec => exact mem_of_probe? h
  | path spec =>
      rw [resolve?, Option.or_eq_some_iff] at h
      rcases h with h | ⟨-, h⟩
      · exact mem_of_probe? h
      · rw [Option.or_eq_some_iff] at h
        rcases h with h | ⟨-, h⟩
        · exact mem_of_probe? h
        · exact mem_of_lookup? h

/-- What an import leads to is one of the files. -/
theorem mem_of_target? {language : Language} {raw : Text}
    (h : index.target? language importer raw = some f) : f ∈ index.files := by
  obtain ⟨s, -, hs⟩ := List.exists_of_findSome?_eq_some h
  exact mem_of_resolve? hs

-- ======================================================= the order of files

section

variable (h : ∀ f, f ∈ files ↔ f ∈ files')
include h

/-- Probing goes by the set of files. -/
theorem probe?_congr (path : Text) :
    (ofList files).probe? path = (ofList files').probe? path := by
  have hcontains : (ofList files).files.contains
      = (ofList files').files.contains := by
    funext f
    rw [Bool.eq_iff_iff, List.contains_iff_mem, List.contains_iff_mem]
    exact h f
  unfold probe?
  rw [hcontains]

/-- So does every choice among them. -/
theorem mem_filter_congr (p : Text → Bool) (f : Text) :
    f ∈ (ofList files).files.filter p ↔ f ∈ (ofList files').files.filter p := by
  rw [List.mem_filter, List.mem_filter]
  exact and_congr_left fun _ => h f

/-- The files that a name may mean are the same, in whatever order. -/
theorem mem_named_congr (key f : Text) :
    f ∈ (ofList files).named key ↔ f ∈ (ofList files').named key := by
  have hname := mem_filter_congr h fun f => Specifier.lastSegment f == key
  have hstem := mem_filter_congr h fun f => stem f == key
  unfold named
  generalize (ofList files).files.filter
    (fun f => Specifier.lastSegment f == key) = found at hname
  generalize (ofList files').files.filter
    (fun f => Specifier.lastSegment f == key) = found' at hname
  cases found with
  | nil =>
      have hnil : found' = [] := List.eq_nil_iff_forall_not_mem.2 fun g hg =>
        List.not_mem_nil ((hname g).2 hg)
      rw [hnil]
      exact hstem f
  | cons a found =>
      cases found' with
      | nil => exact absurd ((hname a).1 (List.mem_cons_self ..)) (by simp)
      | cons b found' => exact hname f

/-- The search by name goes by the set of files too, since ties are broken by
the files themselves. -/
theorem lookup?_congr (spec importer : Text) :
    (ofList files).lookup? spec importer
      = (ofList files').lookup? spec importer := by
  unfold lookup?
  dsimp only
  split
  · rfl
  · refine best?_congr fun f => ?_
    rw [List.mem_filter, List.mem_filter]
    exact and_congr_left fun _ => mem_named_congr h _ f

/-- Where a specifier leads is settled by what files there are. -/
theorem resolve?_congr (importer : Text) (s : Specifier) :
    (ofList files).resolve? importer s
      = (ofList files').resolve? importer s := by
  cases s with
  | relative spec => exact probe?_congr h _
  | path spec =>
      rw [resolve?, resolve?, probe?_congr h, probe?_congr h, lookup?_congr h]

/-- So does the target of an import. -/
theorem target?_congr (language : Language) (importer raw : Text) :
    (ofList files).target? language importer raw
      = (ofList files').target? language importer raw := by
  unfold target?
  rw [funext (resolve?_congr h importer)]

end

end FileIndex

end SourceDigest
