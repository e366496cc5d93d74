/-
The ranking of a repository: the one order in which its files can stand.

Scores are ordered by their bits. That keeps to their values
(`Precedes.not_score_lt`) and tells every two of them apart
(`Double.rank_injective`), zeros and what is no number as well; files of one
score are ordered by their paths. So a ranking compares by a key (`key`),
and what is left to show is that no two files of a walk share one:
below an absolute root a file is reported with its path as seen from there
(`path_scoreFile_of_mem`), and no two of these are alike
(`nodup_relativeTo_collect`).

The scores themselves come from a graph over all files of the walk. A graph
does not ask in which order its files were indexed
(`FileSystem.importGraph_congr`), so whoever indexes the files in one order
and visits them in another arrives at the same ranking.
-/
import Mathlib
import SourceDigest.Proofs.Data.Double
import SourceDigest.Proofs.Imports.Building
import SourceDigest.Proofs.Scoring.Reports
import SourceDigest.Proofs.Sorting

namespace SourceDigest

namespace ScoredFile

variable {a b : ScoredFile}

/-- Whether a file stands before another in a ranking: its score is higher,
or the same and its path comes first. -/
def Precedes (a b : ScoredFile) : Prop :=
  b.score.rank < a.score.rank ∨ a.score = b.score ∧ a.path < b.path

/-- What files are ranked by. -/
def key (f : ScoredFile) : ℤᵒᵈ ×ₗ Text :=
  toLex (OrderDual.toDual f.score.rank, f.path)

/-- Scores are compared by their keys. -/
theorem comparesBy_key : ComparesBy le key := by
  intro a b
  unfold le key
  rw [Prod.Lex.toLex_le_toLex]
  dsimp only
  rw [OrderDual.toDual_lt_toDual, OrderDual.toDual_inj, ← Text.le_iff]
  by_cases h : a.score.rank = b.score.rank
  · simp [h]
  · simp [h]

/-- And one stands before another if its key is the smaller. -/
theorem precedes_iff : Precedes a b ↔ key a < key b := by
  unfold Precedes key
  rw [Prod.Lex.toLex_lt_toLex]
  dsimp only
  rw [OrderDual.toDual_lt_toDual, OrderDual.toDual_inj, Double.rank_injective.eq_iff]

/-- What stands before another file has no lower score. -/
theorem Precedes.not_score_lt (h : Precedes a b) : ¬a.score < b.score := by
  intro hlt
  obtain ⟨ha, hb, -⟩ := Double.lt_iff.1 hlt
  have hrank := (Double.rank_lt_rank_iff ha hb).2 (.inl hlt)
  rcases h with h | ⟨h, -⟩
  · omega
  · rw [h] at hrank
    exact lt_irrefl _ hrank

/-- Files of different paths have different keys. -/
theorem nodup_map_key {files : List ScoredFile}
    (h : (files.map (·.path)).Nodup) : (files.map key).Nodup := by
  have hpath : files.map (·.path)
      = (files.map key).map fun k => (ofLex k).2 := by
    rw [List.map_map]
    rfl
  rw [hpath] at h
  exact h.of_map _

end ScoredFile

-- ================================================================== the walk

namespace Walk

variable {w : Walk} {f : Path}

/-- What a walk from an absolute root gives is absolute. -/
theorem isAbsolute_of_mem_collect (hfs : w.fs.WellFormed)
    (habs : Path.isAbsolute w.root = true) (hf : f ∈ w.collect) :
    Path.isAbsolute f = true := by
  have hroot : w.root ≠ [] := by
    intro hnil
    rw [hnil] at habs
    cases habs
  obtain ⟨names, rfl, -, hnames, -⟩ := exists_names_of_mem_collect hfs hf
  rw [Path.isAbsolute_below hroot hnames, habs]

/-- No two files of a walk from an absolute root look alike from there. -/
theorem nodup_relativeTo_collect (hfs : w.fs.WellFormed)
    (habs : Path.isAbsolute w.root = true) :
    (w.collect.map (Path.relativeTo w.root)).Nodup := by
  have hparts : (w.collect.map Path.parts).Nodup :=
    ((List.mergeSort_perm _ _).map _).nodup_iff.2
      (nodup_filesBelow (listing_wellFormed hfs w.root))
  refine (hparts.of_map _).map_on fun p hp q hq h => ?_
  exact List.inj_on_of_nodup_map hparts hp hq (Path.parts_eq_of_relativeTo_eq
    (.inr (isAbsolute_of_mem_collect hfs habs hp))
    (.inr (isAbsolute_of_mem_collect hfs habs hq)) h)

end Walk

-- ================================================================== rankings

namespace Scorer

variable {s : Scorer} {fs : FileSystem} {root f : Path}
  {files visited indexed : List Path} {graph : Option ImportGraph}

/-- Below an absolute root a file is reported by its path as seen from
there. -/
theorem path_scoreFile_of_mem (hfs : fs.WellFormed)
    (habs : Path.isAbsolute root = true) (hf : f ∈ (s.walk fs root).collect) :
    (s.scoreFile fs graph root f).path = Path.relativeTo root f := by
  have habs' := Walk.isAbsolute_of_mem_collect (w := s.walk fs root) hfs habs hf
  rw [path_scoreFile, Path.join, if_pos habs']

/-- The scores of some files by the graph of some files. -/
def scores (s : Scorer) (fs : FileSystem) (root : Path)
    (visited indexed : List Path) : List ScoredFile :=
  visited.map (s.scoreFile fs (s.graph? fs root indexed) root)

/-- In which order the files were indexed makes no difference. -/
theorem graph?_eq_of_perm (habs : ∀ f ∈ files, Path.isAbsolute f = true)
    (hperm : indexed.Perm files) :
    s.graph? fs root indexed = s.graph? fs root files := by
  unfold graph?
  split
  · rw [FileSystem.importGraph_congr
      (fun f hf => .inr (habs f (hperm.mem_iff.1 hf))) fun f => hperm.mem_iff]
  · rfl

/-- By whatever graph, the scores of a walk carry its paths. -/
theorem map_path_scores (hfs : fs.WellFormed)
    (habs : Path.isAbsolute root = true) (indexed : List Path) :
    (s.scores fs root (s.walk fs root).collect indexed).map (·.path)
      = (s.walk fs root).collect.map (Path.relativeTo root) := by
  unfold scores
  rw [List.map_map]
  exact List.map_congr_left fun f hf => path_scoreFile_of_mem hfs habs hf

/-- Scoring a repository from an absolute root ranks the files of the walk.
Each is there once, with its score by the graph over all of them, or by none
if the weight of dependencies is not above zero; a higher score stands
before a lower, and of one score the paths are in order. No other list of
these scores is in that order, and so the ranking is what anyone gets who
indexes the files of the walk and visits them in whatever orders. -/
theorem ranking_is_only_order (s : Scorer) (fs : FileSystem) (root : Path)
    (hfs : fs.WellFormed) (habs : Path.isAbsolute root = true)
    (hroot : fs.checkRoot root = .ok ()) :
    let files := (s.walk fs root).collect
    ∃ ranking, s.scoreRepository fs root = .ok ranking
      ∧ ranking.Perm (files.map (s.scoreFile fs
          (if s.settings.weights.dependency > 0.0 then
            some (fs.importGraph root files s.settings.sourceExtensions)
          else none) root))
      ∧ (ranking.map (·.path)).Perm (files.map (Path.relativeTo root))
      ∧ (files.map (Path.relativeTo root)).Nodup
      ∧ ranking.Pairwise ScoredFile.Precedes
      ∧ (∀ other : List ScoredFile, other.Perm ranking →
          other.Pairwise ScoredFile.Precedes → other = ranking)
      ∧ ∀ visited indexed, visited.Perm files → indexed.Perm files →
          (s.scores fs root visited indexed).mergeSort ScoredFile.le
            = ranking := by
  intro files
  have hpaths := map_path_scores (s := s) hfs habs files
  have hseen : (files.map (Path.relativeTo root)).Nodup :=
    Walk.nodup_relativeTo_collect (w := s.walk fs root) hfs habs
  have hnodup := ScoredFile.nodup_map_key (hpaths ▸ hseen)
  have hsorted := ScoredFile.comparesBy_key.pairwise_lt_mergeSort hnodup
  have hperm : ((s.scores fs root files files).mergeSort ScoredFile.le).Perm
      (s.scores fs root files files) := List.mergeSort_perm ..
  refine ⟨(s.scores fs root files files).mergeSort ScoredFile.le, ?_, hperm,
    hpaths ▸ hperm.map _, hseen,
    hsorted.imp fun hlt => ScoredFile.precedes_iff.2 hlt,
    fun other hother hother' => ?_, fun visited indexed hvisited hindexed => ?_⟩
  · unfold scoreRepository
    rw [hroot]
    rfl
  · refine ScoredFile.comparesBy_key.eq_mergeSort hnodup (hother.trans hperm)
      (hother'.imp fun {a b} h => ?_)
    exact (ScoredFile.comparesBy_key a b).2 (ScoredFile.precedes_iff.1 h).le
  · have hgraph : s.graph? fs root indexed = s.graph? fs root files :=
      graph?_eq_of_perm (fun f hf => Walk.isAbsolute_of_mem_collect
        (w := s.walk fs root) hfs habs hf) hindexed
    refine (ScoredFile.comparesBy_key.mergeSort_eq_of_perm hnodup ?_).symm
    unfold scores
    rw [hgraph]
    exact (hvisited.map _).symm

/-- The scorer that weighs where a file lies infinitely much, and nothing
else. -/
def ofPlace : Scorer where
  settings := { weights := {
    structural := .infinity, fileType := 0.0, recency := 0.0, size := 0.0
    codeDensity := 0.0, dependency := 0.0 } }
  selection := .empty
  now := ⟨0, 0⟩

/-- In the root a file scores one, further down an infinite weight of nothing,
which is no number. -/
theorem scores_ofPlace :
    (ofPlace.scoreFile Walk.nestedFiles.fs none "/r" "/r/a.py").score = 1.0
    ∧ (ofPlace.scoreFile Walk.nestedFiles.fs none "/r" "/r/d/b.py").score
      = .noResult := by
  have ha : Path.join "/r" "/r/a.py" = "/r/a.py" := rfl
  have hb : Path.join "/r" "/r/d/b.py" = "/r/d/b.py" := rfl
  obtain ⟨-, -, hfinda, hfindb⟩ := Walk.find_nestedFiles
  simp only [scoreFile, vitals?, ha, hb, hfinda, hfindb]
  decide +kernel

/-- A place further down is worth nothing, and an infinite weight of nothing is
no number, with a minus: such a file stands last. -/
theorem ranking_of_infinite_weight :
    Walk.nestedFiles.fs.WellFormed ∧ Path.isAbsolute "/r" = true
    ∧ Walk.nestedFiles.fs.checkRoot "/r" = .ok ()
    ∧ ∃ ranking,
      ofPlace.scoreRepository Walk.nestedFiles.fs "/r" = .ok ranking
      ∧ ranking.map (fun f => (f.path, f.score))
        = [("a.py".toList, 1.0), ("d/b.py".toList, .noResult)] := by
  have hroot : Walk.nestedFiles.fs.checkRoot "/r" = .ok () := by
    unfold FileSystem.checkRoot
    rw [Walk.find_nestedFiles.1]
  obtain ⟨ranking, hranking, hperm, -, -, -, honly, -⟩ :=
    ranking_is_only_order ofPlace Walk.nestedFiles.fs "/r"
      Walk.wellFormed_nestedFiles rfl hroot
  refine ⟨Walk.wellFormed_nestedFiles, rfl, hroot, ranking, hranking, ?_⟩
  rw [show (ofPlace.walk Walk.nestedFiles.fs "/r").collect = _ from
    Walk.collect_nestedFiles] at hperm
  obtain ⟨ha, hb⟩ := scores_ofPlace
  have hnone : ¬ofPlace.settings.weights.dependency > 0.0 := by decide
  rw [if_neg hnone] at hperm
  rw [← honly _ hperm.symm ?_]
  · simp only [List.map_cons, List.map_nil, ha, hb, path_scoreFile]
    rfl
  · refine List.pairwise_pair.2 (.inl ?_)
    rw [ha, hb]
    decide

end Scorer

end SourceDigest
