/-
The graph that is built from the files of a repository.

Building adds, source by source, a file and then its imports
(`build_eq_after`), so what is known of additions says what a built graph
is: its files are those that were given, since imports lead nowhere else
(`mem_keys_build`), and the edges of a file are what its sources import,
each other file at its first occurrence (`edgesFrom_build`).

# Files given more than once

A file can be given by several paths, and each of them is a source. They
have the same extension, and the same content as far as they can be read
at all, so each has the imports of the others or none
(`targets_source_agree`). The first one that has them settles the edges,
and it does not matter which one that is. With the files as a set go the
answers of the index and so the whole graph (`importGraph_congr`).
-/
import Mathlib
import SourceDigest.Files.Imports
import SourceDigest.Proofs.Files.Spellings
import SourceDigest.Proofs.Imports.Graph
import SourceDigest.Proofs.Imports.Resolution

namespace SourceDigest

namespace ImportGraph

variable {index : FileIndex} {extensions : List Text} {sources : List Source}
  {changes : List Change} {s : Source} {x : Text} {ts : List Text}

-- ============================================================ as additions

/-- What a source adds: its file, and an edge for each of its imports. -/
def changesOf (index : FileIndex) (extensions : List Text) (s : Source) :
    List Change :=
  .node s.file :: (targets index extensions s).map (.edge s.file)

/-- A source makes its changes one after the other. -/
theorem addSource_eq (g : ImportGraph) (s : Source) :
    addSource index extensions g s
      = (changesOf index extensions s).foldl apply g := by
  unfold addSource changesOf
  rw [List.foldl_cons, List.foldl_map]
  rfl

/-- The graph that is built is the one behind the changes of all sources. -/
theorem build_eq_after (extensions : List Text) (sources : List Source) :
    build extensions sources = after (sources.flatMap
      (changesOf (FileIndex.ofList (sources.map (·.file))) extensions)) := by
  unfold build after
  rw [List.foldl_flatMap]
  congr 1
  funext g s
  exact addSource_eq g s

-- ================================================================= the files

/-- What a source imports is one of the files. -/
theorem mem_files_of_mem_targets (h : x ∈ targets index extensions s) :
    x ∈ index.files := by
  unfold targets at h
  split at h
  · split at h
    · obtain ⟨raw, -, hraw⟩ := List.mem_filterMap.1 h
      exact FileIndex.mem_of_target? hraw
    · cases h
  · cases h

/-- What a source imports is settled by what files there are. -/
theorem targets_congr {names names' : List Text}
    (h : ∀ x, x ∈ names ↔ x ∈ names') (extensions : List Text) (s : Source) :
    targets (FileIndex.ofList names) extensions s
      = targets (FileIndex.ofList names') extensions s := by
  unfold targets
  rw [funext₃ (FileIndex.target?_congr h)]

/-- The changes are a node for each source and an edge for each of its
targets. -/
theorem mem_changes_build {c : Change} :
    c ∈ sources.flatMap (changesOf index extensions)
      ↔ ∃ s ∈ sources, c = .node s.file
        ∨ ∃ t ∈ targets index extensions s, c = .edge s.file t := by
  unfold changesOf
  simp only [List.mem_flatMap, List.mem_cons, List.mem_map, eq_comm]

/-- The files of a built graph are those that it was built from. -/
theorem mem_keys_build :
    x ∈ (build extensions sources).edges.keys
      ↔ x ∈ sources.map (·.file) := by
  rw [build_eq_after, mem_keys_after, List.mem_map]
  simp only [List.mem_filterMap, mem_changes_build]
  constructor
  · rintro (⟨s, hs, hc | ⟨t, -, hc⟩⟩ | ⟨p, ⟨c, ⟨s, hs, hc⟩, hp⟩, hx⟩)
    · cases hc
      exact ⟨s, hs, rfl⟩
    · cases hc
    · obtain rfl | ⟨t, ht, rfl⟩ := hc
      · cases hp
      · change (if s.file = t then none else some (s.file, t)) = some p at hp
        split at hp
        · cases hp
        · cases hp
          obtain rfl | rfl := hx
          · exact ⟨s, hs, rfl⟩
          · exact List.mem_map.1 (mem_files_of_mem_targets ht)
  · rintro ⟨s, hs, rfl⟩
    exact Or.inl ⟨s, hs, Or.inl rfl⟩

-- ================================================================= the edges

/-- What a source adds to the edges of a file. -/
theorem filterMap_changesOf (x : Text) (s : Source) :
    (changesOf index extensions s).filterMap (Change.target? x)
      = if s.file = x then (targets index extensions s).filter (· ≠ x)
        else [] := by
  unfold changesOf
  rw [List.filterMap_cons_none rfl, List.filterMap_map]
  by_cases hx : s.file = x
  · rw [if_pos hx, ← List.filterMap_eq_filter]
    refine List.filterMap_congr fun t _ => ?_
    simp only [Function.comp_apply, Change.target?, hx, true_and, Option.guard,
      decide_eq_true_eq]
  · rw [if_neg hx]
    refine List.filterMap_eq_nil_iff.2 fun t _ => ?_
    simp only [Function.comp_apply, Change.target?, hx, false_and, if_false]

/-- What a source imports from among the files of some sources. -/
def importsAmong (extensions : List Text) (sources : List Source) (s : Source) :
    List Text :=
  targets (FileIndex.ofList (sources.map (·.file))) extensions s

/-- The edges of a file are the imports of its sources, other files each at
its first occurrence. -/
theorem edgesFrom_build (extensions : List Text) (sources : List Source)
    (x : Text) :
    (build extensions sources).edgesFrom x
      = firstOccurrences (sources.flatMap fun s =>
          if s.file = x then (importsAmong extensions sources s).filter (· ≠ x)
          else []) := by
  rw [build_eq_after, edgesFrom_after, List.filterMap_flatMap]
  simp only [filterMap_changesOf]
  rfl

/-- When each source of a file has the same imports or none, any that has
them settles the edges. -/
theorem edgesFrom_build_of_agree
    (hall : ∀ s ∈ sources, s.file = x → importsAmong extensions sources s = []
      ∨ importsAmong extensions sources s = ts)
    (hs : s ∈ sources) (hfile : s.file = x)
    (hts : importsAmong extensions sources s = ts) :
    (build extensions sources).edgesFrom x
      = firstOccurrences (ts.filter (· ≠ x)) := by
  rw [edgesFrom_build]
  refine firstOccurrences_flatMap_of_eq (z := s) (fun s' hs' => ?_) hs ?_
  · by_cases hx : s'.file = x
    · rw [if_pos hx]
      rcases hall s' hs' hx with hnil | heq
      · exact Or.inl (by rw [hnil, List.filter_nil])
      · exact Or.inr (by rw [heq])
    · exact Or.inl (if_neg hx)
  · rw [if_pos hfile, hts]

/-- A file none of whose sources imports anything has no edges. -/
theorem edgesFrom_build_eq_nil
    (hall : ∀ s ∈ sources, s.file = x →
      importsAmong extensions sources s = []) :
    (build extensions sources).edgesFrom x = [] := by
  have hnil : (sources.flatMap fun s => if s.file = x then
      (importsAmong extensions sources s).filter (· ≠ x) else []) = [] := by
    refine List.flatMap_eq_nil_iff.2 fun s hs => ?_
    split
    · rename_i hx
      rw [hall s hs hx, List.filter_nil]
    · rfl
  rw [edgesFrom_build, hnil]
  rfl

/-- A graph that is built is sound. -/
theorem sound_build (extensions : List Text) (sources : List Source) :
    Sound (build extensions sources) := by
  rw [build_eq_after]
  exact sound_after _

end ImportGraph

-- ================================================ files as they are on disk

/-- The extension of a path is one of some, in whatever case; without any
it is empty. -/
def Path.HasExtension (p : Path) (extensions : List Text) : Prop :=
  ∃ e ∈ extensions,
    Text.lowerAscii e = Text.lowerAscii ((Path.extension? p).getD [])

instance (p : Path) (extensions : List Text) :
    Decidable (p.HasExtension extensions) :=
  inferInstanceAs (Decidable (∃ e ∈ extensions, _))

namespace FileSystem

open ImportGraph

variable {fs : FileSystem} {root f f' : Path} {content : Bytes}
  {files : List Path} {extensions : List Text} {index : FileIndex}

/-- A source is scanned if its file has one of the extensions. -/
theorem isScanned_extension_source :
    isScanned extensions (fs.source root f).extension = true
      ↔ f.HasExtension extensions := by
  have hlower : ∀ t : Text, Text.lowerAscii (Text.lowerAscii t)
      = Text.lowerAscii t := by
    intro t
    unfold Text.lowerAscii
    rw [List.map_map]
    exact List.map_congr_left fun c _ => Char.toLower_toLower_eq_toLower c
  unfold isScanned source Path.HasExtension Text.sameAscii
  simp only [List.any_eq_true, beq_iff_eq, hlower]

/-- A file that is read and scanned imports what its imports lead to. -/
theorem targets_source_of_read (hread : fs.read f = .ok content)
    (hext : f.HasExtension extensions) :
    targets index extensions (fs.source root f)
      = (Imports.scan (Language.ofExtension (fs.source root f).extension)
          (Text.ofBytes content)).filterMap
        (index.target? (Language.ofExtension (fs.source root f).extension)
          (Path.relativeTo root f)) := by
  have hcontent : (fs.source root f).content = some (Text.ofBytes content) := by
    unfold source
    rw [hread]
    rfl
  unfold targets
  rw [hcontent]
  exact if_pos (isScanned_extension_source.2 hext)

/-- A file with another extension has no targets. -/
theorem targets_source_of_not_hasExtension (h : ¬f.HasExtension extensions) :
    targets index extensions (fs.source root f) = [] := by
  unfold targets
  split
  · exact if_neg fun hscan => h (isScanned_extension_source.1 hscan)
  · rfl

/-- Neither has one that cannot be read. -/
theorem targets_source_of_unreadable (h : ∀ content, fs.read f ≠ .ok content) :
    targets index extensions (fs.source root f) = [] := by
  have hcontent : (fs.source root f).content = none := by
    unfold source
    cases hread : fs.read f with
    | error trouble => rfl
    | ok content => exact absurd hread (h content)
  unfold targets
  rw [hcontent]

/-- By each of its paths a file imports the same, or nothing. -/
theorem targets_source_agree
    (hf : Path.IsBelow root f ∨ Path.isAbsolute f = true)
    (hf' : Path.IsBelow root f' ∨ Path.isAbsolute f' = true)
    (hsame : Path.relativeTo root f' = Path.relativeTo root f)
    (hread : fs.read f = .ok content) :
    targets index extensions (fs.source root f') = []
      ∨ targets index extensions (fs.source root f')
        = targets index extensions (fs.source root f) := by
  have hparts := Path.parts_eq_of_relativeTo_eq hf' hf hsame
  cases hread' : fs.read f' with
  | error trouble =>
      exact Or.inl (targets_source_of_unreadable fun content' h => by
        rw [hread'] at h
        cases h)
  | ok content' =>
      right
      congr 1
      unfold source
      rw [hsame, hread, hread', Path.extension?_eq_of_parts_eq hparts,
        read_eq_of_parts_eq hparts hread' hread]

theorem map_file_source (fs : FileSystem) (root : Path) (files : List Path) :
    (files.map (fs.source root)).map (·.file)
      = files.map (Path.relativeTo root) := by
  rw [List.map_map]
  rfl

/-- The nodes are the files, told from the root. -/
theorem mem_keys_importGraph {x : Text} :
    x ∈ (fs.importGraph root files extensions).edges.keys
      ↔ ∃ f ∈ files, Path.relativeTo root f = x := by
  rw [← List.mem_map, ← map_file_source fs]
  exact mem_keys_build

section

variable (hfiles : ∀ f ∈ files, Path.IsBelow root f ∨ Path.isAbsolute f = true)
include hfiles

/-- A file that can be read has the edges of its imports, by whatever other
paths it is given. -/
theorem edgesFrom_importGraph (extensions : List Text) (hf : f ∈ files)
    (hread : fs.read f = .ok content) :
    (fs.importGraph root files extensions).edgesFrom (Path.relativeTo root f)
      = firstOccurrences ((targets
          (FileIndex.ofList (files.map (Path.relativeTo root))) extensions
          (fs.source root f)).filter (· ≠ Path.relativeTo root f)) := by
  rw [← map_file_source fs]
  refine edgesFrom_build_of_agree (s := fs.source root f) (fun s hs hfile => ?_)
    (List.mem_map_of_mem hf) rfl rfl
  obtain ⟨f', hf', rfl⟩ := List.mem_map.1 hs
  exact targets_source_agree (hfiles f hf) (hfiles f' hf') hfile hread

omit hfiles in
/-- A file that cannot be read or is not scanned has no edges. -/
theorem edgesFrom_importGraph_eq_nil {x : Text}
    (hall : ∀ f ∈ files, Path.relativeTo root f = x →
      f.HasExtension extensions → ∀ content, fs.read f ≠ .ok content) :
    (fs.importGraph root files extensions).edgesFrom x = [] := by
  refine edgesFrom_build_eq_nil fun s hs hfile => ?_
  obtain ⟨f, hf, rfl⟩ := List.mem_map.1 hs
  by_cases hext : f.HasExtension extensions
  · exact targets_source_of_unreadable (hall f hf hfile hext)
  · exact targets_source_of_not_hasExtension hext

/-- The graph is the same for the same files. -/
theorem importGraph_congr {files' : List Path}
    (hsame : ∀ f, f ∈ files ↔ f ∈ files') :
    fs.importGraph root files extensions
      = fs.importGraph root files' extensions := by
  have hfiles' : ∀ f ∈ files',
      Path.IsBelow root f ∨ Path.isAbsolute f = true := fun f hf =>
    hfiles f ((hsame f).2 hf)
  have hnames : ∀ x, x ∈ files.map (Path.relativeTo root)
      ↔ x ∈ files'.map (Path.relativeTo root) := by
    intro x
    rw [List.mem_map, List.mem_map]
    exact exists_congr fun f => and_congr_left fun _ => hsame f
  refine (sound_build ..).ext (sound_build ..) (fun x => ?_) fun x => ?_
  · have hkeys : (∃ f ∈ files, Path.relativeTo root f = x)
        ↔ ∃ f ∈ files', Path.relativeTo root f = x :=
      exists_congr fun f => and_congr_left fun _ => hsame f
    exact mem_keys_importGraph.trans (hkeys.trans mem_keys_importGraph.symm)
  · by_cases hread : ∃ f ∈ files, Path.relativeTo root f = x
        ∧ ∃ content, fs.read f = .ok content
    · obtain ⟨f, hf, rfl, content, hread⟩ := hread
      have hleft := edgesFrom_importGraph hfiles extensions hf hread
      have hright := edgesFrom_importGraph hfiles' extensions
        ((hsame f).1 hf) hread
      rw [← targets_congr hnames] at hright
      exact hleft.trans hright.symm
    · have hright : (fs.importGraph root files' extensions).edgesFrom x = [] :=
        edgesFrom_importGraph_eq_nil fun f hf hx _ content hok =>
          hread ⟨f, (hsame f).2 hf, hx, content, hok⟩
      exact (edgesFrom_importGraph_eq_nil fun f hf hx _ content hok =>
        hread ⟨f, hf, hx, content, hok⟩).trans hright.symm

end

/-- The graph of some files has them as its files, seen from the root. A
file that is read and scanned has an edge to each other file that one of
its imports leads to, in the order of their first occurrence; where one
leads is where the first of its specifiers does that leads anywhere.
A file that is not scanned, or not read by any path that it is given by,
has no edges. So edges lead to files that were given, not back and to each
once. -/
theorem importGraph_lists_resolved_imports (fs : FileSystem) (root : Path)
    (files : List Path) (extensions : List Text)
    (hfiles : ∀ f ∈ files, Path.IsBelow root f ∨ Path.isAbsolute f = true) :
    (∀ x, x ∈ (fs.importGraph root files extensions).edges.keys
      ↔ ∃ f ∈ files, Path.relativeTo root f = x)
    ∧ (fs.importGraph root files extensions).edges.keys.Nodup
    ∧ (∀ f ∈ files, ∀ content, fs.read f = .ok content →
        f.HasExtension extensions →
        let file := Path.relativeTo root f
        let language := Language.ofExtension
          (Text.lowerAscii ((Path.extension? f).getD []))
        let index := FileIndex.ofList (files.map (Path.relativeTo root))
        (fs.importGraph root files extensions).edgesFrom file
          = firstOccurrences
            (((Imports.scan language (Text.ofBytes content)).filterMap
              fun raw => (Specifier.ofImport language file raw).findSome?
                (index.resolve? file)).filter (· ≠ file)))
    ∧ (∀ f ∈ files, ¬f.HasExtension extensions →
        (fs.importGraph root files extensions).edgesFrom
          (Path.relativeTo root f) = [])
    ∧ (∀ x, (∀ f ∈ files, Path.relativeTo root f = x →
          ∀ content, fs.read f ≠ .ok content) →
        (fs.importGraph root files extensions).edgesFrom x = [])
    ∧ ∀ x, x ∉ (fs.importGraph root files extensions).edgesFrom x
        ∧ ((fs.importGraph root files extensions).edgesFrom x).Nodup
        ∧ ∀ y ∈ (fs.importGraph root files extensions).edgesFrom x,
          ∃ f ∈ files, Path.relativeTo root f = y := by
  have hsound := sound_build extensions (files.map (fs.source root))
  refine ⟨fun x => mem_keys_importGraph, hsound.edges.nodup_keys,
    fun f hf content hread hext => ?_, fun f hf hext => ?_, fun x hx => ?_,
    fun x => ?_⟩
  · dsimp only
    rw [edgesFrom_importGraph hfiles extensions hf hread,
      targets_source_of_read hread hext]
    rfl
  · refine edgesFrom_importGraph_eq_nil fun f' hf' hsame hext' => ?_
    -- the extension is the same by every path of the file
    have hparts := Path.parts_eq_of_relativeTo_eq (hfiles f' hf') (hfiles f hf)
      hsame
    unfold Path.HasExtension at hext hext'
    rw [Path.extension?_eq_of_parts_eq hparts] at hext'
    exact absurd hext' hext
  · exact edgesFrom_importGraph_eq_nil fun f hf hsame _ => hx f hf hsame
  · exact ⟨hsound.irreflexive x, hsound.nodup x, fun y hy =>
      mem_keys_importGraph.1 (hsound.closed x y hy)⟩

/-- Two files of which one imports the other, twice, and itself. -/
def twoModules : FileSystem where
  top := [("r".toList, .directory [
    ("a.py".toList, .file (Text.toBytes "import b\nimport a\nimport b\n") 0),
    ("b.py".toList, .file [] 0)])]
  here := []

theorem importGraph_of_two_modules :
    (∀ f ∈ ["/r/a.py".toList, "/r/b.py".toList],
      Path.IsBelow "/r" f ∨ Path.isAbsolute f = true)
    ∧ (twoModules.importGraph "/r" ["/r/a.py".toList, "/r/b.py".toList]
        ["PY".toList]).edgesFrom "a.py" = ["b.py".toList] := by
  have hfiles : ∀ f ∈ ["/r/a.py".toList, "/r/b.py".toList],
      Path.IsBelow "/r" f ∨ Path.isAbsolute f = true := by
    simp [Path.isAbsolute]
  refine ⟨hfiles, ?_⟩
  have hread : twoModules.read "/r/a.py"
      = .ok (Text.toBytes "import b\nimport a\nimport b\n") := by
    simp [twoModules, FileSystem.read, FileSystem.find, FileSystem.follow,
      Path.isAbsolute, Text.splitOn, Trail.follow, Trail.entries, Trail.enter,
      Text.byteSize, nameLimit, show 'r'.utf8Size = 1 from rfl,
      show 'a'.utf8Size = 1 from rfl, show '.'.utf8Size = 1 from rfl,
      show 'p'.utf8Size = 1 from rfl, show 'y'.utf8Size = 1 from rfl]
  have hedges := (importGraph_lists_resolved_imports twoModules "/r" _
    ["PY".toList] hfiles).2.2.1 "/r/a.py" (by simp) _ hread (by decide)
  dsimp only at hedges
  rw [show Path.relativeTo "/r" "/r/a.py" = "a.py".toList by decide] at hedges
  rw [hedges]
  decide +kernel

end FileSystem

/-- What imports lead to, and the graph of what the files import, are
settled by which files there are and what they hold: in which order and how
often they are given makes no difference. -/
theorem resolution_and_graph_depend_on_set (files files' : List Path)
    (hsame : ∀ f, f ∈ files ↔ f ∈ files') :
    (∀ importer s, (FileIndex.ofList files).resolve? importer s
      = (FileIndex.ofList files').resolve? importer s)
    ∧ ∀ (fs fs' : FileSystem) (root : Path) (extensions : List Text),
        (∀ f ∈ files, Path.IsBelow root f ∨ Path.isAbsolute f = true) →
        (∀ f ∈ files, fs.read f = fs'.read f) →
        fs.importGraph root files extensions
          = fs'.importGraph root files' extensions := by
  refine ⟨FileIndex.resolve?_congr hsame, fun fs fs' root extensions hfiles
    hread => ?_⟩
  have hsources : files.map (fs.source root) = files.map (fs'.source root) := by
    refine List.map_congr_left fun f hf => ?_
    unfold FileSystem.source
    rw [hread f hf]
  have hgraph : fs.importGraph root files extensions
      = fs'.importGraph root files extensions := by
    unfold FileSystem.importGraph
    rw [hsources]
  rw [hgraph]
  exact FileSystem.importGraph_congr hfiles hsame

theorem importGraph_of_repeated_module :
    (∀ f, f ∈ ["/r/a.py".toList, "/r/b.py".toList, "/r/a.py".toList]
      ↔ f ∈ ["/r/b.py".toList, "/r/a.py".toList])
    ∧ FileSystem.twoModules.importGraph "/r"
        ["/r/a.py".toList, "/r/b.py".toList, "/r/a.py".toList] ["py".toList]
      = FileSystem.twoModules.importGraph "/r"
        ["/r/b.py".toList, "/r/a.py".toList] ["py".toList] := by
  have hsame : ∀ f, f ∈ ["/r/a.py".toList, "/r/b.py".toList, "/r/a.py".toList]
      ↔ f ∈ ["/r/b.py".toList, "/r/a.py".toList] := by
    intro f
    simp only [List.mem_cons, List.not_mem_nil, or_false]
    constructor
    · rintro (h | h | h)
      · exact Or.inr h
      · exact Or.inl h
      · exact Or.inr h
    · rintro (h | h)
      · exact Or.inr (Or.inl h)
      · exact Or.inl h
  exact ⟨hsame, (resolution_and_graph_depend_on_set _ _ hsame).2
    FileSystem.twoModules FileSystem.twoModules "/r" ["py".toList]
    (by simp [Path.isAbsolute]) fun _ _ => rfl⟩

end SourceDigest
