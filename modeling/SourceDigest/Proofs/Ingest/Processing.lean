/-
What processing may give, whoever steps when.

Processing runs one schedule, but nothing in it hangs on which. `Gives`
says what processing some paths may give: the results of any run after
which all workers have stopped. `GivesBelow` says the same of a directory,
whose files may be collected in any order as well. What is run is one of
these outcomes (`gives_processPaths`, `givesBelow_processDirectory`), and
all of them are the same but for the order of the records
(`Gives.perm`, `GivesBelow.map_eq`).

How many threads there are has no part in it: a pool that could not be
started leaves one worker, the calling thread, and any number of workers
from one on gives the same records.
-/
import Mathlib
import SourceDigest.Proofs.Ingest.Records
import SourceDigest.Proofs.Ingest.Workers

namespace SourceDigest

/-- There is always somebody to take from the queue. -/
theorem one_le_drainers (threads : Nat) : 1 ≤ drainers threads :=
  Nat.le_max_left ..

namespace Processor

/-- How many workers share some paths. -/
def workersFor (p : Processor) (m : Machine) (paths : List Path) : Nat :=
  drainers
    (m.spawner.pool (min (p.settings.threadsOn m.cores) paths.length)).1

/-- How many collectors share the directories below a root. -/
def collectorsFor (p : Processor) (m : Machine) : Nat :=
  drainers (m.spawner.pool (p.collectors m)).1

/-- Some records are what processing some paths may give. -/
inductive Gives (p : Processor) (m : Machine) :
    (paths : List Path) → List FileRecord → Prop
  | nothing : Gives p m [] []
  | finished {paths : List Path} {tracker : Tracker} {schedule : List Nat}
      {g : Ingestion} :
    g = (Ingestion.start paths tracker (p.workersFor m paths)).run
      (p.processFile m) schedule →
    (∀ w ∈ g.workers, w = .stopped) →
    Gives p m paths g.results

/-- Some files are what collecting them below a root may give, which leaves
the machine as it says. -/
inductive Collects (p : Processor) (m : Machine) (root : Path) :
    (parallel : Bool) → List Path → Machine → Prop
  | alone : Collects p m root false (p.walk m root).collect m
  | shared {schedule : List Nat} {c : Collection} :
    c = (Collection.start (p.walk m root) (p.collectorsFor m)).run
      (p.walk m root) p.settings.collectorBatchSize schedule →
    (∀ k ∈ c.collectors, k = .stopped) →
    Collects p m root true (c.files.mergeSort Path.le)
      { m with spawner := (m.spawner.pool (p.collectors m)).2 }

/-- Some records, or trouble with the root, are what processing a directory
may give. -/
inductive GivesBelow (p : Processor) (m : Machine) (root : Path)
    (parallel : Bool) : Except ScanError (List FileRecord) → Prop
  | refused {e : ScanError} :
    m.fs.checkRoot root = .error e →
    GivesBelow p m root parallel (.error e)
  | processed {files : List Path} {after : Machine}
      {records : List FileRecord} :
    m.fs.checkRoot root = .ok () →
    Collects p m root parallel files after →
    Gives p after files records →
    GivesBelow p m root parallel (.ok records)

variable {p : Processor} {m after : Machine} {paths files : List Path}
  {root : Path} {records : List FileRecord} {parallel : Bool}
  {outcome : Except ScanError (List FileRecord)}

-- ====================================================================== paths

/-- Whatever processing gives, it is one record for each path. -/
theorem Gives.perm (h : p.Gives m paths records) :
    records.Perm (paths.map (p.processFile m)) := by
  cases h with
  | nothing => exact List.Perm.refl _
  | @finished _ tracker schedule g hg hstop =>
      have hsound := (Ingestion.sound_start (p.processFile m) paths tracker
        (p.workersFor m paths)).run schedule
      rw [← hg] at hsound
      exact hsound.results_perm (one_le_drainers _) hstop

/-- Workers that take their turns one after the other come to an end. -/
theorem gives_processPaths (p : Processor) (m : Machine) (paths : List Path)
    (tracker : Tracker) : p.Gives m paths (p.processPaths m paths tracker).1 := by
  unfold processPaths
  dsimp only
  split
  · rename_i hnil
    rw [hnil]
    exact .nothing
  · refine .finished rfl (Ingestion.stopped_of_count _ paths
      (tracker.start paths.length) _ fun i hi => ?_)
    rw [Ingestion.count_inTurn]
    exact (if_pos hi).ge

-- ================================================================ directories

/-- Whatever collecting gives, it is what one walk gives, and the machine
reads as before. -/
theorem Collects.eq (hfs : m.fs.WellFormed)
    (h : p.Collects m root parallel files after) :
    files = (p.walk m root).collect
      ∧ p.processFile after = p.processFile m := by
  cases h with
  | alone => exact ⟨rfl, rfl⟩
  | @shared schedule c hc hstop =>
      have hsound := Collection.sound_run_start (w := p.walk m root) hfs
        (p.collectorsFor m) p.settings.collectorBatchSize schedule
      rw [← hc] at hsound
      exact ⟨hsound.mergeSort_files_of_stopped hfs (one_le_drainers _) hstop,
        rfl⟩

/-- Whatever processing a directory gives, it is one record for each file
that one walk finds, or the trouble with the root. -/
theorem GivesBelow.map_eq (hfs : m.fs.WellFormed)
    (h : p.GivesBelow m root parallel outcome) :
    outcome.map Multiset.ofList = (m.fs.checkRoot root).map fun _ =>
      Multiset.ofList ((p.walk m root).collect.map (p.processFile m)) := by
  cases h with
  | refused hroot =>
      rw [hroot]
      rfl
  | processed hroot hfiles hrecords =>
      obtain ⟨rfl, hread⟩ := hfiles.eq hfs
      have hperm := hrecords.perm
      rw [hread] at hperm
      rw [hroot]
      exact congrArg Except.ok (Multiset.coe_eq_coe.2 hperm)

/-- Collectors that take their turns one after the other come to an end. -/
theorem collects_collectFiles (hfs : m.fs.WellFormed)
    (h : (p.collectFiles m root parallel).1 = .ok files) :
    m.fs.checkRoot root = .ok ()
      ∧ p.Collects m root parallel files (p.collectFiles m root parallel).2 := by
  unfold collectFiles at h ⊢
  cases hroot : m.fs.checkRoot root with
  | error e =>
      rw [hroot] at h
      cases h
  | ok _ =>
      rw [hroot] at h
      dsimp only at h ⊢
      refine ⟨rfl, ?_⟩
      cases parallel with
      | false =>
          cases h
          exact .alone
      | true =>
          cases h
          refine .shared rfl fun k hk => ?_
          have hcs := (Collection.collectors_run_inTurn
            (n := p.collectorsFor m) hfs p.settings.collectorBatchSize
            (Nat.le_refl (4 * (p.walk m root).weight root + 2))
            (Nat.le_refl _)).1
          rw [Nat.sub_self, List.replicate_zero, List.append_nil] at hcs
          exact List.eq_of_mem_replicate (hcs ▸ hk)

/-- Collecting fails only where the root does. -/
theorem checkRoot_of_collectFiles_error {e : ScanError}
    (h : (p.collectFiles m root parallel).1 = .error e) :
    m.fs.checkRoot root = .error e := by
  unfold collectFiles at h
  cases hroot : m.fs.checkRoot root with
  | error e' =>
      rw [hroot] at h
      cases h
      rfl
  | ok _ =>
      rw [hroot] at h
      dsimp only at h
      cases parallel <;> cases h

/-- A directory gives what the files below it give, however they are
gathered. -/
theorem givesBelow_processDirectory (hfs : m.fs.WellFormed) (p : Processor)
    (root : Path) (parallel : Bool) (tracker : Tracker) :
    p.GivesBelow m root parallel
      (p.processDirectory m root parallel tracker).1 := by
  unfold processDirectory
  dsimp only
  cases hfiles : p.collectFiles m root parallel with
  | mk collected after =>
      have hfst := congrArg Prod.fst hfiles
      cases collected with
      | error e => exact .refused (checkRoot_of_collectFiles_error hfst)
      | ok files =>
          obtain ⟨hroot, hcollects⟩ := collects_collectFiles hfs hfst
          rw [hfiles] at hcollects
          exact .processed hroot hcollects (gives_processPaths ..)

-- ================================================================= the whole

/-- Whatever paths are processed, by however many threads, and in whatever
order workers and collectors take their steps:

- There is one record for each path, the one that reading it gives. Until
  then it is among the results, with one worker, or its path is queued.
  Workers that have enough turns come to an end, and what is run is such a
  run.
- A directory gives the same records, or the same trouble, collected in
  parallel or not, and however many threads can be created.
- A record is of one kind. It is of a file that was read when the path leads
  to a file that is not too large, is opened, and has no zero byte among its
  first, and then it carries what the file holds; no other carries
  content. -/
theorem gives_one_record_each (p : Processor) (m : Machine) :
    (∀ paths records, p.Gives m paths records →
      records.Perm (paths.map (p.processFile m)))
    ∧ (∀ paths tracker schedule, ∀ g : Ingestion,
        g = (Ingestion.start paths tracker (p.workersFor m paths)).run
          (p.processFile m) schedule →
        (g.owed (p.processFile m)).Perm (paths.map (p.processFile m))
        ∧ ((∀ i < p.workersFor m paths,
            5 * paths.length + 1 ≤ schedule.count i) →
          ∀ w ∈ g.workers, w = .stopped))
    ∧ (∀ paths tracker, p.Gives m paths (p.processPaths m paths tracker).1)
    ∧ (m.fs.WellFormed → ∀ root,
        (∀ parallel tracker, p.GivesBelow m root parallel
          (p.processDirectory m root parallel tracker).1)
        ∧ ∀ spawner spawner' outcome outcome',
          p.GivesBelow { m with spawner := spawner } root true outcome →
          p.GivesBelow { m with spawner := spawner' } root false outcome' →
          outcome.map Multiset.ofList = outcome'.map Multiset.ofList)
    ∧ ∀ path,
        [(p.processFile m path).isProcessed, (p.processFile m path).isSkipped,
          (p.processFile m path).isErrored].count true = 1
        ∧ ((p.processFile m path).isProcessed = true
          ↔ ∃ content modified, m.fs.find path = .ok (.file content modified)
            ∧ content.length ≤ min p.settings.maxFileSize (100 * 1024 * 1024)
            ∧ m.refusals path = none
            ∧ (0 : UInt8) ∉ content.take 8192)
        ∧ ∀ content, (p.processFile m path).content = some content
          ↔ (p.processFile m path).isProcessed = true
            ∧ ∃ modified, m.fs.find path = .ok (.file content modified) := by
  refine ⟨fun paths records => Gives.perm, ?_, gives_processPaths p m,
    fun hfs root => ⟨givesBelow_processDirectory hfs p root, ?_⟩,
    fun path => ⟨FileSystem.kinds_readRecord .., ?_, fun content => ?_⟩⟩
  · rintro paths tracker schedule g rfl
    exact ⟨((Ingestion.sound_start ..).run schedule).records,
      Ingestion.stopped_of_count _ paths tracker _⟩
  · intro spawner spawner' outcome outcome' h h'
    have hleft := GivesBelow.map_eq (m := { m with spawner := spawner }) hfs h
    have hright := GivesBelow.map_eq (m := { m with spawner := spawner' }) hfs h'
    exact hleft.trans hright.symm
  · exact FileSystem.isProcessed_readRecord_iff
  · exact FileSystem.content_readRecord_iff

/-- A machine with two cores that can create one more thread only. -/
def oneThreadLeft : Machine where
  fs := Walk.linkedFiles.fs
  cores := 2
  spawner := ⟨some 1⟩

def ofLinkedFiles : Processor where
  selection := Walk.linkedFiles.selection

theorem processFile_oneThreadLeft :
    ofLinkedFiles.processFile oneThreadLeft "/r/a.rs".toList
        = .processed "/r/a.rs" []
      ∧ ofLinkedFiles.processFile oneThreadLeft "/r/d".toList
        = .skipped "/r/d" 0 .notAFile
      ∧ ofLinkedFiles.processFile oneThreadLeft "/r/e".toList
        = .errored "/r/e" FileTrouble.notFound.message := by
  have hfind : oneThreadLeft.fs.find "/r/a.rs".toList = .ok (.file [] 0)
      ∧ oneThreadLeft.fs.find "/r/d".toList
        = .ok (.directory [("b.rs".toList, .file [] 0)])
      ∧ oneThreadLeft.fs.find "/r/e".toList = .error .notFound := by
    simp [oneThreadLeft, Walk.linkedFiles, Walk.linkedEntries, FileSystem.find,
      FileSystem.follow, Path.isAbsolute, Text.splitOn, Trail.follow,
      Trail.entries, Trail.enter, List.lookup, Text.byteSize, nameLimit,
      show 'r'.utf8Size = 1 from rfl, show 'a'.utf8Size = 1 from rfl,
      show '.'.utf8Size = 1 from rfl, show 's'.utf8Size = 1 from rfl,
      show 'd'.utf8Size = 1 from rfl, show 'e'.utf8Size = 1 from rfl]
  obtain ⟨hfile, hdirectory, hmissing⟩ := hfind
  unfold processFile FileSystem.readRecord FileSystem.sample
    FileSystem.openFile FileSystem.read
  rw [hfile, hdirectory, hmissing]
  exact ⟨rfl, rfl, rfl⟩

/-- A file, a directory, a missing file and the file again, all read by the
calling thread; and the directory both ways. -/
theorem gives_one_record_each_oneThreadLeft :
    oneThreadLeft.fs.WellFormed
    ∧ (ofLinkedFiles.processPaths oneThreadLeft
        ["/r/a.rs".toList, "/r/d".toList, "/r/e".toList, "/r/a.rs".toList]
        {}).1.Perm
      [.processed "/r/a.rs" [], .skipped "/r/d" 0 .notAFile,
        .errored "/r/e" FileTrouble.notFound.message, .processed "/r/a.rs" []]
    ∧ (ofLinkedFiles.processDirectory oneThreadLeft "/r" true {}).1.map
        Multiset.ofList
      = (ofLinkedFiles.processDirectory oneThreadLeft "/r" false {}).1.map
        Multiset.ofList := by
  have h := gives_one_record_each ofLinkedFiles oneThreadLeft
  have hfs : oneThreadLeft.fs.WellFormed := Walk.wellFormed_linkedFiles
  refine ⟨hfs, ?_, (h.2.2.2.1 hfs "/r").2 _ _ _ _
    ((h.2.2.2.1 hfs "/r").1 true {}) ((h.2.2.2.1 hfs "/r").1 false {})⟩
  have hperm := h.1 _ _ (h.2.2.1
    ["/r/a.rs".toList, "/r/d".toList, "/r/e".toList, "/r/a.rs".toList] {})
  obtain ⟨hfile, hdirectory, hmissing⟩ := processFile_oneThreadLeft
  rw [List.map_cons, List.map_cons, List.map_cons, List.map_singleton, hfile,
    hdirectory, hmissing] at hperm
  exact hperm

end Processor

end SourceDigest
