/-
What paths a scorer reports, and what a scan that selects by score reads.

A score carries the path of its file as seen from the root, and whoever
wants the file joins that path to the root again. The scorer joins the
root to the paths that the walk gave, which have it in front already, so
what it reports is right exactly where that does no harm: below an
absolute root and below the working directory. There each reported path
leads to its file, so a scan reads what was selected.

That a file of the walk can be read by its path is due to following a path
and walking being the same (`Walk.exists_names_of_mem_collect`). What is
said of the scores holds whatever their numbers are: sorting keeps them
(`scoreRepository_perm`), and selecting takes some of them
(`exists_chosen`).
-/
import Mathlib
import SourceDigest.Command.Run
import SourceDigest.Proofs.Ingest.Processing
import SourceDigest.Proofs.Path.Rejoining

namespace SourceDigest

-- ============================================================ collected files

namespace Walk

variable {w : Walk} {dir f : Path} {names : List Text} {content : Bytes}
  {modified : Int}

/-- A file that names lead to through real directories is found by them. -/
theorem find_below (hfs : w.fs.WellFormed) (hne : names ≠ [])
    (h : (FileNode.directory (w.listing dir)).at? names
      = some (.file content modified)) :
    w.fs.find (Path.below dir names) = .ok (.file content modified) := by
  induction names generalizing dir with
  | nil => exact absurd rfl hne
  | cons name names ih =>
      have hwf := listing_wellFormed hfs dir
      obtain ⟨n, hmem, hn⟩ := (FileNode.at?_cons_eq_some hwf).1 h
      have hname := hwf.isEntryName hmem
      by_cases hnil : names = []
      · -- the file is an entry of the directory that the listing is of
        subst hnil
        rw [FileNode.at?_nil, Option.some.injEq] at hn
        subst hn
        obtain ⟨t, hfollow, ht⟩ :=
          exists_follow_of_listing rfl (List.ne_nil_of_mem hmem)
        obtain ⟨left, hjoin⟩ := FileSystem.follow_join hfollow hname.toIsName
        have hlookup : t.entries.lookup name = some (.file content modified) := by
          rw [ht]
          exact hwf.lookup_eq hmem
        rw [Trail.follow, if_neg (by simp [hname.ne_nil, hname.ne_here]),
          if_neg hname.ne_up, if_neg (by have := hname.short; omega),
          hlookup] at hjoin
        unfold FileSystem.find
        rw [Path.below_cons, Path.below_nil, hjoin]
        rfl
      · -- the name is of a directory, whose listing the next name is in
        obtain ⟨m, more, rfl⟩ := List.exists_cons_of_ne_nil hnil
        obtain ⟨inner, rfl⟩ := FileNode.exists_directory_of_at?_cons hn
        refine ih hnil ?_
        rw [listing_join hfs rfl hmem]
        exact hn

/-- A path that the walk gives has names behind the root, and leads to a
file. -/
theorem exists_names_of_mem_collect (hfs : w.fs.WellFormed)
    (h : f ∈ w.collect) :
    ∃ names, f = Path.below w.root names ∧ names ≠ []
      ∧ (∀ n ∈ names, Path.IsName n)
      ∧ ∃ content modified, w.fs.find f = .ok (.file content modified) := by
  have hroot := listing_wellFormed hfs w.root
  unfold collect at h
  rw [List.mem_mergeSort] at h
  obtain ⟨names, rfl, heligible⟩ := (mem_filesBelow_root hroot).1 h
  obtain ⟨n, hn, hfile⟩ := heligible.node
  have hne : names ≠ [] := fun hnil => not_eligible_nil (hnil ▸ heligible)
  refine ⟨names, rfl, hne,
    fun x hx => (hroot.isEntryName_of_at? hn x hx).toIsName, ?_⟩
  rcases hfile with ⟨content, modified, rfl⟩ | ⟨-, -, hlinked⟩
  · exact ⟨content, modified, find_below hfs hne hn⟩
  · unfold FileSystem.isFile at hlinked
    split at hlinked
    · rename_i content modified hfind
      exact ⟨content, modified, hfind⟩
    · cases hlinked

end Walk

/-- The empty path is no root. -/
theorem FileSystem.ne_nil_of_checkRoot {fs : FileSystem} {root : Path}
    (h : fs.checkRoot root = .ok ()) : root ≠ [] := by
  rintro rfl
  simp [checkRoot, find, follow] at h

-- ============================================================= reported paths

namespace Processor

variable {p : Processor} {m : Machine} {root : Path}

/-- The scorer for the files that a processor takes. -/
def scorer (p : Processor) (settings : ScoringSettings) (now : Moment) :
    Scorer :=
  ⟨settings, p.selection, now, p.settings.followSymlinks⟩

theorem collectFiles_eq (hfs : m.fs.WellFormed)
    (hroot : m.fs.checkRoot root = .ok ()) (parallel : Bool) :
    (p.collectFiles m root parallel).1 = .ok (p.walk m root).collect := by
  cases hfiles : (p.collectFiles m root parallel).1 with
  | ok files => rw [((collects_collectFiles hfs hfiles).2.eq hfs).1]
  | error e =>
      rw [checkRoot_of_collectFiles_error hfiles] at hroot
      cases hroot

end Processor

namespace Scorer

variable {p : Processor} {m : Machine} {root : Path} {f : Path}

/-- A path that is reported is what joining the root once more leaves. -/
theorem path_scoreFile (s : Scorer) (fs : FileSystem)
    (graph : Option ImportGraph) (root path : Path) :
    (s.scoreFile fs graph root path).path
      = Path.relativeTo root (Path.join root path) := rfl

/-- Scoring a repository is scoring what the walk gives. -/
theorem scoreRepository_perm (s : Scorer) {fs : FileSystem}
    (hroot : fs.checkRoot root = .ok ()) :
    ∃ graph scored, s.scoreRepository fs root = .ok scored
      ∧ scored.Perm ((s.walk fs root).collect.map
        (s.scoreFile fs graph root)) := by
  unfold scoreRepository
  rw [hroot]
  exact ⟨_, _, rfl, List.mergeSort_perm ..⟩

/-- A file of the walk is reported with what is left of the root in front. -/
theorem relativeTo_join_of_mem (hfs : m.fs.WellFormed) (hroot : root ≠ [])
    (hf : f ∈ (p.walk m root).collect) :
    Path.relativeTo root (Path.join root f)
      = Path.withDoubled root (Path.relativeTo root f) := by
  obtain ⟨names, rfl, hne, hnames, -⟩ :=
    Walk.exists_names_of_mem_collect hfs hf
  exact Path.relativeTo_join_below hroot hnames hne

/-- Seen from the root and joined to it, a path of the walk is itself. -/
theorem join_of_mem_collect (hfs : m.fs.WellFormed) (hroot : root ≠ [])
    (hf : f ∈ (p.walk m root).collect) :
    Path.join root (Path.relativeTo root f) = f := by
  obtain ⟨names, rfl, hne, hnames, -⟩ :=
    Walk.exists_names_of_mem_collect hfs hf
  exact Path.join_relativeTo_below hroot hnames hne

/-- What is selected are some of the files, and their paths lead to them. -/
theorem exists_chosen {g : Path → ScoredFile} {scored : List ScoredFile}
    (hfs : m.fs.WellFormed) (hroot : root ≠ [])
    (hg : ∀ f ∈ (p.walk m root).collect, (g f).path = Path.relativeTo root f)
    (hscored : scored.Perm ((p.walk m root).collect.map g)) :
    ∃ chosen : List Path, chosen.Sublist (p.walk m root).collect
      ∧ (selected scored).Perm (chosen.map (Path.relativeTo root))
      ∧ ((selected scored).map (Path.join root)).Perm chosen := by
  have hsub : ((p.walk m root).collect.filter fun f => (g f).included).Sublist
      (p.walk m root).collect := List.filter_sublist
  have hselected := (hscored.filter (·.included)).map (·.path)
  rw [List.filter_map, List.map_map] at hselected
  have hpath : ∀ f ∈ (p.walk m root).collect.filter fun f => (g f).included,
      (g f).path = Path.relativeTo root f := fun f hf => hg f (hsub.subset hf)
  have hback : ∀ f ∈ (p.walk m root).collect.filter fun f => (g f).included,
      (Path.join root ∘ Path.relativeTo root) f = id f := fun f hf =>
    join_of_mem_collect hfs hroot (hsub.subset hf)
  replace hselected := hselected.trans
    (List.Perm.of_eq (List.map_congr_left hpath))
  refine ⟨_, hsub, hselected, (hselected.map _).trans (List.Perm.of_eq ?_)⟩
  rw [List.map_map]
  exact (List.map_congr_left hback).trans (List.map_id _)

/-- A file of the walk is found, so what goes wrong is that it is not opened. -/
theorem isErrored_of_mem_collect (hfs : m.fs.WellFormed)
    (hf : f ∈ (p.walk m root).collect)
    (herror : (p.processFile m f).isErrored = true) : m.refusals f ≠ none := by
  obtain ⟨names, -, -, -, content, modified, hfind⟩ :=
    Walk.exists_names_of_mem_collect hfs hf
  have hreading := FileSystem.reading_readRecord m.fs m.refusals p.settings f
  unfold Processor.processFile at herror
  generalize m.fs.readRecord m.refusals p.settings f = r at hreading herror
  cases hreading with
  | lost hlost => exact absurd (hlost.symm.trans hfind) (by simp)
  | refused _ _ hrefused => simp [hrefused]
  | notAFile _ _ | tooLarge _ _ | binary _ _ _ _ | read _ _ _ _ => cases herror

end Scorer

-- ====================================================================== scans

/-- A scan that selects by score reads the paths that scoring selects, as
seen from the root and joined to it. -/
theorem ScanOptions.records_of_scored {o : ScanOptions} {s : Settings}
    {m : Machine} {now : Moment} {scored : List ScoredFile}
    (henabled : s.scoringEnabled = true)
    (hscored : (Processor.scorer ⟨s.selection m.fs o.filter.path, s.ingest⟩
      s.scoring now).scoreRepository m.fs o.filter.path = .ok scored) :
    o.records s m now = .ok (Processor.processPaths
      ⟨s.selection m.fs o.filter.path, s.ingest⟩ m
      ((Scorer.selected scored).map (Path.join o.filter.path)) {}).1 := by
  unfold Processor.scorer at hscored
  unfold records
  rw [if_pos henabled]
  dsimp only
  rw [hscored]

/-- What scoring a repository reports, for every root that is a directory and
every scorer that takes the files that a processor does: each collected file
by its path as seen from the root, with what is left of the root in front.
These are the paths as seen from the root exactly when the root is absolute
or only the working directory, or nothing is collected. Then each of them,
joined to the root, is its file, and a scan that selects by score makes the
record of every selected file: an error only where a file is not opened. -/
theorem scoreRepository_reports_collected_iff (p : Processor) (m : Machine)
    (root : Path) (settings : ScoringSettings) (now : Moment)
    (hfs : m.fs.WellFormed) (hroot : m.fs.checkRoot root = .ok ()) :
    ∃ files scored,
      (∀ parallel, (p.collectFiles m root parallel).1 = .ok files)
      ∧ (p.scorer settings now).scoreRepository m.fs root = .ok scored
      ∧ (scored.map (·.path)).Perm ((files.map (Path.relativeTo root)).map
        (Path.withDoubled root))
      ∧ ((scored.map (·.path)).Perm (files.map (Path.relativeTo root))
        ↔ Path.IsAnchor root ∨ files = [])
      ∧ (Path.IsAnchor root ∨ files = [] →
        (scored.map fun s => (s.path, Path.join root s.path)).Perm
          (files.map fun f => (Path.relativeTo root f, f))
        ∧ ∀ (o : ScanOptions) (s : Settings), o.filter.path = root →
          s.scoringEnabled = true → s.scoring = settings →
          p = ⟨s.selection m.fs root, s.ingest⟩ →
          ∃ (chosen : List Path) (records : List FileRecord),
            chosen.Sublist files
            ∧ (Scorer.selected scored).Perm
              (chosen.map (Path.relativeTo root))
            ∧ o.records s m now = .ok records
            ∧ records.Perm (chosen.map (p.processFile m))
            ∧ ∀ f ∈ chosen, (p.processFile m f).isErrored = true →
              m.refusals f ≠ none) := by
  have hne := FileSystem.ne_nil_of_checkRoot hroot
  obtain ⟨graph, scored, hscore, hscored⟩ :=
    (p.scorer settings now).scoreRepository_perm hroot
  have hpaths : (scored.map (·.path)).Perm (((p.walk m root).collect.map
      (Path.relativeTo root)).map (Path.withDoubled root)) := by
    refine (hscored.map _).trans (List.Perm.of_eq ?_)
    rw [List.map_map, List.map_map]
    exact List.map_congr_left fun f hf =>
      Scorer.relativeTo_join_of_mem hfs hne hf
  have hiff := Path.perm_withDoubled_iff hne hpaths
  rw [List.map_eq_nil_iff] at hiff
  refine ⟨(p.walk m root).collect, scored, Processor.collectFiles_eq hfs hroot,
    hscore, hpaths, hiff, fun h => ?_⟩
  have hsame : ∀ f ∈ (p.walk m root).collect,
      ((p.scorer settings now).scoreFile m.fs graph root f).path
        = Path.relativeTo root f := by
    intro f hf
    rw [Scorer.path_scoreFile, Scorer.relativeTo_join_of_mem hfs hne hf,
      Path.withDoubled_of_isAnchor hne (h.resolve_right (List.ne_nil_of_mem hf))]
  constructor
  · refine (hscored.map _).trans (List.Perm.of_eq ?_)
    rw [List.map_map]
    refine List.map_congr_left fun f hf => ?_
    show (_, Path.join root _) = _
    rw [hsame f hf, Scorer.join_of_mem_collect hfs hne hf]
  · rintro o s rfl henabled rfl rfl
    obtain ⟨chosen, hsub, hselected, hjoined⟩ :=
      Scorer.exists_chosen hfs hne hsame hscored
    exact ⟨chosen, _, hsub, hselected,
      ScanOptions.records_of_scored henabled hscore,
      (Processor.gives_processPaths ..).perm.trans (hjoined.map _),
      fun f hf => Scorer.isErrored_of_mem_collect hfs (hsub.subset hf)⟩

/-- A working directory with a repository of one file in it. -/
def oneRepository : Machine where
  fs :=
    { top := [("w".toList,
        .directory [("repo".toList,
          .directory [("main.rs".toList, .file [] 0)])])]
      here := ["w".toList] }

/-- The processor that takes every file. -/
def ofAllFiles : Processor where
  selection := .empty

theorem wellFormed_oneRepository : oneRepository.fs.WellFormed := by
  have hrepo : (FileNode.directory
      [("main.rs".toList, .file [] 0)]).WellFormed :=
    .directory (by decide) (by decide) fun e he => by
      rw [List.mem_singleton.1 he]
      exact .file
  have hw : (FileNode.directory [("repo".toList,
      .directory [("main.rs".toList, .file [] 0)])]).WellFormed :=
    .directory (by decide) (by decide) fun e he => by
      rw [List.mem_singleton.1 he]
      exact hrepo
  exact .directory (by decide) (by decide) fun e he => by
    rw [List.mem_singleton.1 he]
    exact hw

/-- The repository by its two paths, and where its file is not. -/
theorem find_oneRepository :
    oneRepository.fs.find "/w/repo"
        = .ok (.directory [("main.rs".toList, .file [] 0)])
      ∧ oneRepository.fs.find "repo"
        = .ok (.directory [("main.rs".toList, .file [] 0)])
      ∧ oneRepository.fs.find "repo/repo/main.rs" = .error .notFound := by
  simp [oneRepository, FileSystem.find, FileSystem.follow, FileSystem.trailOf,
    Path.isAbsolute, Text.splitOn, Trail.follow, Trail.entries, Trail.enter,
    List.lookup, Text.byteSize, nameLimit, show 'r'.utf8Size = 1 from rfl,
    show 'e'.utf8Size = 1 from rfl, show 'p'.utf8Size = 1 from rfl,
    show 'o'.utf8Size = 1 from rfl, show 'w'.utf8Size = 1 from rfl]

theorem collect_oneRepository {root : Path}
    (hinput : Walk.isStandardInput root = false)
    (hroot : oneRepository.fs.find root
      = .ok (.directory [("main.rs".toList, .file [] 0)])) :
    oneRepository.fs.checkRoot root = .ok ()
      ∧ (ofAllFiles.walk oneRepository root).collect
        = [Path.join root "main.rs"] := by
  have hlisting : (ofAllFiles.walk oneRepository root).listing root
      = [("main.rs".toList, .file [] 0)] := by
    unfold Walk.listing FileSystem.entries
    rw [if_neg (by simp [hinput]),
      show (ofAllFiles.walk oneRepository root).fs.find root = _ from hroot]
  have htakes : ∀ path,
      (ofAllFiles.walk oneRepository root).takes path = true := fun _ => rfl
  constructor
  · unfold FileSystem.checkRoot
    rw [hroot]
  · show (((ofAllFiles.walk oneRepository root).filesBelow root
      ((ofAllFiles.walk oneRepository root).listing root)).mergeSort _) = _
    rw [hlisting, Walk.filesBelow, Walk.filesBelow, Walk.filesAt, Walk.isFile,
      htakes, Bool.and_self, if_pos rfl, List.append_nil,
      List.mergeSort_singleton]

/-- By its absolute path the repository is reported as it should be. -/
theorem scoreRepository_reports_absolute :
    ∃ scored, (ofAllFiles.scorer {} ⟨0, 0⟩).scoreRepository oneRepository.fs
        "/w/repo" = .ok scored
      ∧ (scored.map fun s => (s.path, Path.join "/w/repo" s.path)).Perm
        [("main.rs".toList, "/w/repo/main.rs".toList)] := by
  obtain ⟨hroot, hcollect⟩ := collect_oneRepository (by decide)
    find_oneRepository.1
  obtain ⟨files, scored, hfiles, hscore, -, -, hanchor⟩ :=
    scoreRepository_reports_collected_iff ofAllFiles oneRepository "/w/repo" {}
      ⟨0, 0⟩ wellFormed_oneRepository hroot
  have hperm := (hanchor (.inl (.inl rfl))).1
  have hsame := (hfiles false).symm.trans
    (Processor.collectFiles_eq wellFormed_oneRepository hroot false)
  rw [Except.ok.inj hsame, hcollect] at hperm
  exact ⟨scored, hscore, hperm⟩

/-- By its relative path it is reported with the path in front, which joined
to the root is missing. -/
theorem scoreRepository_doubles_relative :
    ∃ scored, (∀ parallel,
        (ofAllFiles.collectFiles oneRepository "repo" parallel).1
          = .ok ["repo/main.rs".toList])
      ∧ (ofAllFiles.scorer {} ⟨0, 0⟩).scoreRepository oneRepository.fs "repo"
        = .ok scored
      ∧ Path.relativeTo "repo" "repo/main.rs" = "main.rs".toList
      ∧ scored.map (·.path) = ["repo/main.rs".toList]
      ∧ oneRepository.fs.find (Path.join "repo" "repo/main.rs")
        = .error .notFound := by
  obtain ⟨hroot, hcollect⟩ := collect_oneRepository (by decide)
    find_oneRepository.2.1
  obtain ⟨graph, scored, hscore, hscored⟩ :=
    (ofAllFiles.scorer {} ⟨0, 0⟩).scoreRepository_perm hroot
  have hperm := hscored.map (·.path)
  rw [show ((ofAllFiles.scorer {} ⟨0, 0⟩).walk oneRepository.fs "repo").collect
    = _ from hcollect] at hperm
  refine ⟨scored, fun parallel => ?_, hscore, by decide,
    List.perm_singleton.1 hperm, find_oneRepository.2.2⟩
  rw [Processor.collectFiles_eq wellFormed_oneRepository hroot, hcollect]
  rfl

end SourceDigest
