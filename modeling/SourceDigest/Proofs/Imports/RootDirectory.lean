/-
Relative imports that end at a directory, and at the root of all of them.

An import means a directory when no file stands at its location, as it is
written or with an extension (`NoFileAt`); it is then answered by the first
index file right in the directory (`resolve?_of_noFileAt`). The root has the
empty location. There the probe ends before it has tried anything
(`resolve?_of_root`), so an index file in the root is never the answer to a
relative import, however the way to the root is spelled.
-/
import Mathlib
import SourceDigest.Proofs.Imports.Walks

namespace SourceDigest

namespace FileIndex

variable {names : List Text} {importer spec : Text} {index : FileIndex}

/-- The segments along which a relative import is walked. -/
def segmentsFrom (importer spec : Text) : List Text :=
  Text.splitOn '/' (parentDir importer) ++ Text.splitOn '/' spec

/-- The first index file right in a directory, given by its names from the
root down. -/
def directoryFile? (index : FileIndex) (names : List Text) : Option Text :=
  (indexFiles.map fun f => Text.join "/" (names ++ [f.toList])).find?
    (index.files.contains ·)

/-- No file is called what some names spell, as it is or with an
extension. -/
def NoFileAt (index : FileIndex) (names : List Text) : Prop :=
  ∀ file ∈ Text.join "/" names ::
    extensions.map (fun e => Text.join "/" names ++ '.' :: e.toList),
      file ∉ index.files

/-- A directory stands for no file if none of the index files is in it. -/
theorem directoryFile?_eq_none_iff :
    index.directoryFile? names = none
      ↔ ∀ f ∈ indexFiles, Text.join "/" (names ++ [f.toList]) ∉ index.files := by
  simp [directoryFile?]

/-- The candidates of a location below the root end with the index files of
the directory there. -/
theorem candidates_join (hne : names ≠ []) :
    candidates (Text.join "/" names)
      = (Text.join "/" names ::
          extensions.map fun e => Text.join "/" names ++ '.' :: e.toList)
        ++ indexFiles.map fun f => Text.join "/" (names ++ [f.toList]) := by
  unfold candidates
  congr 1
  refine List.map_congr_left fun f _ => ?_
  rw [Text.join_append _ hne (List.cons_ne_nil _ _), Text.join_singleton,
    List.append_assoc]
  rfl

/-- Below the root a directory is answered by its first index file. -/
theorem resolve?_of_noFileAt (hwalk : Walk (segmentsFrom importer spec) names)
    (hne : names ≠ []) (hno : index.NoFileAt names) :
    index.resolve? importer (.relative spec) = index.directoryFile? names := by
  have hsegments : ∀ s ∈ segmentsFrom importer spec, '/' ∉ s := by
    intro s hs
    rcases List.mem_append.1 hs with hs | hs
    · exact Text.notMem_of_mem_splitOn hs
    · exact Text.notMem_of_mem_splitOn hs
  have hprobed : index.resolve? importer (.relative spec)
      = (candidates (Text.join "/" names)).find? (index.files.contains ·) :=
    probe?_of_location? hwalk.location?_eq
      (join_ne_nil (hwalk.isName hsegments) hne)
  have hplain : (Text.join "/" names :: extensions.map fun e =>
      Text.join "/" names ++ '.' :: e.toList).find?
        (index.files.contains ·) = none := by
    rw [List.find?_eq_none]
    exact fun file hfile => by simpa using hno file hfile
  rw [hprobed, candidates_join hne, List.find?_append, hplain, Option.none_or]
  rfl

/-- The root has the empty location, for which nothing is tried. -/
theorem resolve?_of_root (hwalk : Walk (segmentsFrom importer spec) []) :
    index.resolve? importer (.relative spec) = none := by
  show index.probe? (inDir (parentDir importer) spec) = none
  unfold probe?
  rw [hwalk.location?_eq]
  rfl

/-- Let a relative import end at a directory where no file is called like it.
The first index file right in the directory is the answer exactly when the
directory is not the root, or the root has no index file either; at the root
there is no answer at all. -/
theorem index_answers_directory_iff (index : FileIndex)
    (importer spec : Text) (names : List Text)
    (hwalk : Walk (segmentsFrom importer spec) names)
    (hno : names ≠ [] → index.NoFileAt names) :
    (index.resolve? importer (.relative spec) = index.directoryFile? names
        ↔ names ≠ [] ∨ ∀ f ∈ indexFiles, f.toList ∉ index.files)
      ∧ (names = [] → index.resolve? importer (.relative spec) = none) := by
  by_cases hroot : names = []
  · subst hroot
    have hnone : index.resolve? importer (.relative spec) = none :=
      resolve?_of_root hwalk
    refine ⟨?_, fun _ => hnone⟩
    rw [hnone, eq_comm, directoryFile?_eq_none_iff]
    simp only [List.nil_append, Text.join_singleton, ne_eq, not_true_eq_false,
      false_or]
  · exact ⟨iff_of_true (resolve?_of_noFileAt hwalk hroot (hno hroot))
      (Or.inl hroot), fun h => absurd h hroot⟩

/-- One directory up is a directory with an index file, two are the root. -/
theorem index_answers_directory_below_root :
    let index := ofList ["index.ts".toList, "src/index.js".toList,
      "src/mod.rs".toList, "src/a/b.ts".toList]
    index.resolve? "src/a/b.ts" (.relative "../") = some "src/index.js".toList
      ∧ index.resolve? "src/a/b.ts" (.relative "./.././../") = none := by
  intro index
  have hsrc : Walk ["src".toList] ([] ++ ["src".toList]) :=
    Walk.start.down (by decide) (by decide) (by decide)
  have hup : Walk (segmentsFrom "src/a/b.ts" "../") ["src".toList] :=
    (hsrc.down (by decide) (by decide) (by decide)).up.stay (Or.inl rfl)
  have hroot : Walk (segmentsFrom "src/a/b.ts" "./.././../") [] :=
    Walk.stay (Walk.up (((hsrc.down (by decide) (by decide) (by decide)).stay
      (Or.inr rfl)).up.stay (Or.inr rfl))) (Or.inl rfl)
  refine ⟨?_, ?_⟩
  · have hno : index.NoFileAt ["src".toList] := by
      unfold NoFileAt
      decide
    have hfirst := (index_answers_directory_iff index "src/a/b.ts" "../" _ hup
      fun _ => hno).1.2 (Or.inl (by decide))
    exact hfirst.trans (by decide)
  · exact (index_answers_directory_iff index "src/a/b.ts" "./.././../" _ hroot
      (by simp)).2 rfl

/-- An index file in the root is not what the directory above `src` leads
to. -/
theorem resolve?_of_index_in_root :
    let index := ofList ["index.ts".toList, "src/a.ts".toList]
    Walk (segmentsFrom "src/a.ts" "../") []
      ∧ index.directoryFile? [] = some "index.ts".toList
      ∧ index.resolve? "src/a.ts" (.relative "../") ≠ some "index.ts".toList := by
  intro index
  have hsrc : Walk ["src".toList] ([] ++ ["src".toList]) :=
    Walk.start.down (by decide) (by decide) (by decide)
  exact ⟨Walk.stay (Walk.up hsrc) (Or.inl rfl), by decide, by decide⟩

end FileIndex

end SourceDigest
