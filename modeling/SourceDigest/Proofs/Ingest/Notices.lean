/-
What a listener is told of an ingestion, whoever steps when.

A worker counts a path while nobody else does, takes down how far all is,
and tells the listener later, so notices can come in any order. `Report`
says once what the step of a worker does to the results and to the
tracker. Counting a path takes down one snapshot, which is with the worker
until it is told (`Ingestion.snapshots`), and every snapshot has its own
number of finished paths, since each count is one more than the one before
(`Noted.snapshots`). A snapshot is never lost: `snapshots_step` holds of
every step, so when all workers have stopped the listener has been told
the numbers from one to the number of paths, each once.

The counts are those of the results, less the records that are delivered
but not counted yet (`Noted.outcomes`), so at the end they are the counts
of the records. That is where the bound comes from as well: there are never
more results than paths.
-/
import Mathlib
import SourceDigest.Proofs.Ingest.Processing

namespace SourceDigest

namespace Progress

variable {p : Progress} {o o' : FileOutcome} {path : Path}

/-- How many paths have come out one way. -/
def count (p : Progress) : FileOutcome → Nat
  | .processed => p.processed
  | .skipped => p.skipped
  | .errored => p.errors

theorem total_record : (p.record o path).total = p.total := by
  cases o <;> rfl

/-- Each outcome is counted when it is recorded. -/
theorem count_record :
    (p.record o path).count o' = p.count o' + [o].count o' := by
  cases o <;> cases o' <;> rfl

theorem completed_record :
    (p.record o path).completed = p.completed + 1 := by
  cases o <;> simp only [record, completed] <;> omega

end Progress

/-- Whoever listens is told of the end. -/
theorem Tracker.finish_of_listened {t : Tracker} (ht : t.listened = true) :
    t.finish = { t with
      progress := t.progress.finish
      notices := t.notices ++ [t.progress.finish] } := by
  unfold finish notify
  exact if_pos ht

/-- Every path comes out one way. -/
theorem FileOutcome.count_add_count (os : List FileOutcome) :
    os.count .processed + os.count .skipped + os.count .errored
      = os.length := by
  induction os with
  | nil => rfl
  | cons o os ih =>
      simp only [List.count_cons, List.length_cons]
      cases o <;> simp <;> omega

namespace Worker

variable {t t' : Tracker} {w w' : Worker} {handed : List FileRecord}

/-- The snapshots that a worker has yet to tell of. -/
def untold : Worker → List Progress
  | telling p => [p]
  | _ => []

/-- The outcomes that a worker has yet to count. -/
def uncounted : Worker → List FileOutcome
  | counting o _ => [o]
  | _ => []

/-- Whether the next step of a worker counts a path. -/
def counts : Worker → Bool
  | counting _ _ => true
  | _ => false

/-- What the step of a worker does to it and to the tracker, and the records
that it hands over. -/
inductive Report : Tracker → Worker → Tracker → Worker → List FileRecord → Prop
  | deliver {t : Tracker} {r : FileRecord} :
    Report t (.delivering r) t (.counting r.outcome r.path) [r]
  | count {t : Tracker} {o : FileOutcome} {path : Path} :
    Report t (.counting o path)
      { t with progress := t.progress.record o path }
      (.telling (t.progress.record o path)) []
  | tell {t : Tracker} {p : Progress} :
    Report t (.telling p)
      { t with notices := if t.listened then t.notices ++ [p] else t.notices }
      .idle []
  | quiet {t : Tracker} {w w' : Worker} :
    w.untold = [] ∧ w.uncounted = [] ∧ w.counts = false →
    w'.untold = [] ∧ w'.uncounted = [] →
    Report t w t w' []

namespace Report

theorem listened_eq (h : Report t w t' w' handed) :
    t'.listened = t.listened := by
  cases h <;> rfl

theorem total_eq (h : Report t w t' w' handed) :
    t'.progress.total = t.progress.total := by
  cases h with
  | count => exact Progress.total_record
  | deliver | tell | quiet _ _ => rfl

/-- A report counts one file more where the worker is about to count, and
otherwise none. -/
theorem completed_eq (h : Report t w t' w' handed) :
    t'.progress.completed
      = t.progress.completed + if w.counts then 1 else 0 := by
  cases h with
  | count => exact Progress.completed_record
  | deliver | tell => rfl
  | quiet hw _ => rw [hw.2.2]; rfl

/-- An outcome goes from the results to the worker and from there to the
count. -/
theorem count_outcomes (h : Report t w t' w' handed) (o : FileOutcome) :
    t'.progress.count o + w'.uncounted.count o
      = t.progress.count o + w.uncounted.count o
        + (handed.map FileRecord.outcome).count o := by
  cases h with
  | deliver => rfl
  | count =>
      show (Progress.record _ _ _).count o + 0 = _ + _ + 0
      rw [Progress.count_record]
      rfl
  | tell => rfl
  | quiet hw hw' => rw [hw.2.1, hw'.2]; rfl

/-- A snapshot goes from the count to the worker and from there to the
listener. -/
theorem count_snapshots (h : Report t w t' w' handed)
    (ht : t.listened = true) (p : Progress) :
    t'.notices.count p + w'.untold.count p
      = t.notices.count p + w.untold.count p
        + (if w.counts then [t'.progress] else []).count p := by
  cases h with
  | deliver => rfl
  | count => rfl
  | tell =>
      dsimp only
      rw [if_pos ht, List.count_append]
      rfl
  | quiet hw hw' => rw [hw.1, hw'.1, hw.2.2]; rfl

end Report

end Worker

namespace Ingestion

variable {read : Path → FileRecord} {paths : List Path} {g : Ingestion}
  {i n k workers : Nat}

/-- All snapshots that have been taken down, told or not. -/
def snapshots (g : Ingestion) : List Progress :=
  g.tracker.notices ++ g.workers.flatMap Worker.untold

/-- Whether the step of a worker counts a path. -/
def counts (g : Ingestion) (i : Nat) : Bool :=
  (g.workers[i]?.map Worker.counts).getD false

/-- How many paths are counted in the course of a schedule. -/
def countings (read : Path → FileRecord) : Ingestion → List Nat → Nat
  | _, [] => 0
  | g, i :: schedule =>
    (if g.counts i then 1 else 0) + countings read (g.step read i) schedule

/-- Whoever takes a step reports, unless there is nobody or it has
stopped. -/
theorem step_reports (read : Path → FileRecord) (g : Ingestion) (i : Nat) :
    (g.counts i = false ∧ g.step read i = g)
      ∨ ∃ w w' handed, g.workers[i]? = some w ∧ g.counts i = w.counts
        ∧ Worker.Report g.tracker w (g.step read i).tracker w' handed
        ∧ (g.step read i).workers = g.workers.set i w'
        ∧ (g.step read i).results = g.results ++ handed := by
  unfold step counts
  cases hw : g.workers[i]? with
  | none => exact Or.inl ⟨rfl, rfl⟩
  | some w =>
      cases w with
      | idle =>
          right
          cases g.queue with
          | nil =>
              exact ⟨_, .stopped, [], rfl, rfl, .quiet ⟨rfl, rfl, rfl⟩ ⟨rfl, rfl⟩,
                rfl, (List.append_nil _).symm⟩
          | cons path rest =>
              exact ⟨_, .reading path, [], rfl, rfl,
                .quiet ⟨rfl, rfl, rfl⟩ ⟨rfl, rfl⟩, rfl,
                (List.append_nil _).symm⟩
      | reading path =>
          exact Or.inr ⟨_, .delivering (read path), [], rfl, rfl,
            .quiet ⟨rfl, rfl, rfl⟩ ⟨rfl, rfl⟩, rfl, (List.append_nil _).symm⟩
      | delivering r => exact Or.inr ⟨_, _, [r], rfl, rfl, .deliver, rfl, rfl⟩
      | counting o path =>
          exact Or.inr ⟨_, _, [], rfl, rfl, .count, rfl,
            (List.append_nil _).symm⟩
      | telling p =>
          exact Or.inr ⟨_, _, [], rfl, rfl, .tell, rfl,
            (List.append_nil _).symm⟩
      | stopped => exact Or.inl ⟨rfl, rfl⟩

variable (read) in
/-- Snapshots are not lost, and each count takes down one. -/
theorem snapshots_step (ht : g.tracker.listened = true) (i : Nat) :
    (g.step read i).snapshots.Perm (g.snapshots
      ++ if g.counts i then [(g.step read i).tracker.progress] else []) := by
  obtain ⟨hcounts, heq⟩ | ⟨w, w', handed, hw, hcounts, hreport, hworkers, -⟩ :=
    step_reports read g i
  · rw [heq, hcounts, if_neg Bool.false_ne_true, List.append_nil]
  · obtain ⟨front, back, hfront, hset⟩ := Collection.exists_set_eq hw
    refine List.perm_iff_count.2 fun p => ?_
    have hcount := hreport.count_snapshots ht p
    unfold snapshots
    rw [hworkers, hset, hfront, hcounts]
    simp only [List.flatMap_append, List.flatMap_cons, List.count_append]
    omega

/-- What holds of an ingestion of `n` paths that has counted `k` of them. -/
structure Noted (n k : Nat) (g : Ingestion) : Prop where
  listened : g.tracker.listened = true
  total : g.tracker.progress.total = n
  completed : g.tracker.progress.completed = k
  /-- The results are counted, or with a worker that is to count them. -/
  outcomes : ∀ o, (g.results.map FileRecord.outcome).count o
    = g.tracker.progress.count o + (g.workers.flatMap Worker.uncounted).count o
  /-- The snapshots have the numbers up to the last, each once. -/
  snapshots : (g.snapshots.map Progress.completed).Perm (List.range' 1 k)
  totals : ∀ p ∈ g.snapshots, p.total = n

/-- At the start nothing is noted. -/
theorem noted_start (paths : List Path) (workers : Nat) :
    Noted paths.length 0
      (start paths (({} : Tracker).start paths.length) workers) := by
  have hnone : ∀ {α : Type} (f : Worker → List α), f .idle = [] →
      (List.replicate workers Worker.idle).flatMap f = [] := by
    intro α f hf
    rw [List.flatMap_eq_nil_iff]
    intro w hw
    rw [(List.mem_replicate.1 hw).2, hf]
  have hsnapshots : (start paths (({} : Tracker).start paths.length)
      workers).snapshots = [] := hnone Worker.untold rfl
  refine ⟨rfl, rfl, rfl, fun o => ?_, ?_, ?_⟩
  · show _ = _ + ((List.replicate workers Worker.idle).flatMap _).count o
    rw [hnone _ rfl]
    cases o <;> rfl
  · rw [hsnapshots]
    rfl
  · rw [hsnapshots]
    simp

namespace Noted

variable (read) in
/-- A step notes the file it counts, if any. -/
theorem step (h : Noted n k g) (i : Nat) :
    Noted n (k + if g.counts i then 1 else 0) (g.step read i) := by
  have hperm := snapshots_step read h.listened i
  obtain ⟨hcounts, heq⟩ |
      ⟨w, w', handed, hw, hcounts, hreport, hworkers, hresults⟩ :=
    step_reports read g i
  · rw [heq, hcounts, if_neg Bool.false_ne_true]
    exact h
  · have hcompleted : (g.step read i).tracker.progress.completed
        = k + if g.counts i then 1 else 0 := by
      rw [hreport.completed_eq, h.completed, hcounts]
    have htotal := hreport.total_eq.trans h.total
    refine ⟨hreport.listened_eq.trans h.listened, htotal, hcompleted,
      fun o => ?_, ?_, fun p hp => ?_⟩
    · obtain ⟨front, back, hfront, hset⟩ := Collection.exists_set_eq hw
      have hbefore := h.outcomes o
      have hmoved := hreport.count_outcomes o
      rw [hfront] at hbefore
      rw [hworkers, hset, hresults]
      simp only [List.map_append, List.flatMap_append, List.flatMap_cons,
        List.count_append] at hbefore ⊢
      omega
    · refine (hperm.map _).trans ?_
      rw [List.map_append]
      split
      · rename_i hcount
        rw [if_pos hcount] at hcompleted
        rw [List.range'_concat, List.map_singleton, hcompleted, Nat.one_mul,
          Nat.add_comm 1 k]
        exact h.snapshots.append_right _
      · rw [List.map_nil, List.append_nil]
        exact h.snapshots
    · rcases List.mem_append.1 (hperm.mem_iff.1 hp) with hold | hnew
      · exact h.totals p hold
      · split at hnew
        · rw [List.mem_singleton.1 hnew]
          exact htotal
        · cases hnew

variable (read) in
/-- Whatever the order of the steps. -/
theorem run (h : Noted n k g) (schedule : List Nat) :
    Noted n (k + g.countings read schedule) (g.run read schedule) := by
  induction schedule generalizing g k with
  | nil => exact h
  | cons i schedule ih =>
      have hrest := ih (h.step read i)
      rw [Nat.add_assoc] at hrest
      exact hrest

/-- What is counted is among the results. -/
theorem le_length_results (h : Noted n k g) : k ≤ g.results.length := by
  have hlength := FileOutcome.count_add_count
    (g.results.map FileRecord.outcome)
  rw [List.length_map, h.outcomes, h.outcomes, h.outcomes] at hlength
  have hcompleted : g.tracker.progress.count .processed
      + g.tracker.progress.count .skipped
      + g.tracker.progress.count .errored = k := h.completed
  omega

/-- When nothing is left to count or to tell, the counts are those of the
results, and the listener knows of every count. -/
theorem at_end (h : Noted n k g) (hstop : ∀ w ∈ g.workers, w = .stopped) :
    (∀ o, g.tracker.progress.count o
        = (g.results.map FileRecord.outcome).count o)
      ∧ g.results.length = k ∧ g.snapshots = g.tracker.notices := by
  have hnone : ∀ {α : Type} (f : Worker → List α), f .stopped = [] →
      g.workers.flatMap f = [] := by
    intro α f hf
    rw [List.flatMap_eq_nil_iff]
    intro w hw
    rw [hstop w hw, hf]
  have hcount : ∀ o, g.tracker.progress.count o
      = (g.results.map FileRecord.outcome).count o := by
    intro o
    rw [h.outcomes, hnone _ rfl, List.count_nil, Nat.add_zero]
  refine ⟨hcount, ?_, ?_⟩
  · have hlength := FileOutcome.count_add_count
      (g.results.map FileRecord.outcome)
    rw [← hcount, ← hcount, ← hcount, List.length_map] at hlength
    exact hlength.symm.trans h.completed
  · unfold Ingestion.snapshots
    rw [hnone _ rfl, List.append_nil]

end Noted

/-- There are never more results than paths. -/
theorem Sound.length_results_le (h : Sound read paths workers g) :
    g.results.length ≤ paths.length := by
  have hlength := h.records.length_eq
  unfold owed at hlength
  rw [List.length_append, List.length_map] at hlength
  omega

end Ingestion

namespace Processor

variable {p : Processor} {m : Machine} {paths : List Path}
  {records : List FileRecord} {t t' : Tracker}

/-- Some records are what processing some paths may give, and so the tracker
is left. -/
inductive Ends (p : Processor) (m : Machine) (t : Tracker) :
    (paths : List Path) → List FileRecord → Tracker → Prop
  | nothing : Ends p m t [] [] (t.start 0).finish
  | finished {paths : List Path} {schedule : List Nat} {g : Ingestion} :
    g = (Ingestion.start paths (t.start paths.length)
      (p.workersFor m paths)).run (p.processFile m) schedule →
    (∀ w ∈ g.workers, w = .stopped) →
    Ends p m t paths g.results g.tracker.finish

theorem Ends.gives (h : p.Ends m t paths records t') :
    p.Gives m paths records := by
  cases h with
  | nothing => exact .nothing
  | finished hg hstop => exact .finished hg hstop

/-- Workers that take their turns one after the other come to an end. -/
theorem ends_processPaths (p : Processor) (m : Machine) (paths : List Path)
    (t : Tracker) :
    p.Ends m t paths (p.processPaths m paths t).1
      (p.processPaths m paths t).2.1 := by
  unfold processPaths
  dsimp only
  split
  · rename_i hnil
    rw [hnil]
    exact .nothing
  · refine .finished rfl (Ingestion.stopped_of_count _ paths
      (t.start paths.length) _ fun i hi => ?_)
    rw [Ingestion.count_inTurn]
    exact (if_pos hi).ge

/-- Trouble with the root is told of once, as an end with nothing done. -/
theorem tracker_processDirectory_of_error {root : Path} {parallel : Bool}
    {e : ScanError}
    (h : (p.processDirectory m root parallel t).1 = .error e) :
    (p.processDirectory m root parallel t).2.1
      = (t.setPhase .collecting).finish := by
  unfold processDirectory at h ⊢
  dsimp only at h ⊢
  cases hfiles : p.collectFiles m root parallel with
  | mk collected after =>
      rw [hfiles] at h
      cases collected with
      | error e' => rfl
      | ok files => cases h

-- ================================================================= the whole

/-- A new tracker that is listened to, whatever paths are processed, by
however many threads, and in whatever order workers take their steps:

- At any time the counts come to as many as paths have been counted, which
  are never more than all.
- When all workers have stopped, the listener has been told once for every
  path and once more. The notices of the paths have the numbers from one to
  that of the paths, in some order; the last one is that of the end, and its
  counts are those of the records. What is run comes to such an end.
- Of a directory whose root is of no use the listener is told once, with
  nothing counted. -/
theorem listener_is_told_of_each_path (p : Processor) (m : Machine) :
    (∀ paths schedule,
      let start := Ingestion.start paths (({} : Tracker).start paths.length)
        (p.workersFor m paths)
      let progress := (start.run (p.processFile m) schedule).tracker.progress
      progress.processed + progress.skipped + progress.errors
          = start.countings (p.processFile m) schedule
        ∧ start.countings (p.processFile m) schedule ≤ paths.length
        ∧ progress.total = paths.length)
    ∧ (∀ paths records t, p.Ends m {} paths records t →
        t.notices.length = paths.length + 1
        ∧ (∃ told, t.notices = told ++ [t.progress]
          ∧ (told.map Progress.completed).Perm (List.range' 1 paths.length)
          ∧ ∀ q ∈ told, q.total = paths.length)
        ∧ t.progress.isComplete = true ∧ t.progress.phase = .done
        ∧ t.progress.current = none ∧ t.progress.completed = paths.length
        ∧ t.progress.processed
          = (records.map FileRecord.outcome).count .processed
        ∧ t.progress.skipped = (records.map FileRecord.outcome).count .skipped
        ∧ t.progress.errors = (records.map FileRecord.outcome).count .errored)
    ∧ (∀ paths, p.Ends m {} paths (p.processPaths m paths {}).1
        (p.processPaths m paths {}).2.1)
    ∧ ∀ root parallel e, (p.processDirectory m root parallel {}).1 = .error e →
        ∃ q : Progress,
          (p.processDirectory m root parallel {}).2.1.notices = [q]
          ∧ q.isComplete = true ∧ q.total = 0 ∧ q.processed = 0
          ∧ q.skipped = 0 ∧ q.errors = 0 := by
  refine ⟨fun paths schedule => ?_, ?_, fun paths => ends_processPaths ..,
    fun root parallel e h => ?_⟩
  · have hnoted := (Ingestion.noted_start paths (p.workersFor m paths)).run
      (p.processFile m) schedule
    rw [Nat.zero_add] at hnoted
    have hsound := (Ingestion.sound_start (p.processFile m) paths
      (({} : Tracker).start paths.length) (p.workersFor m paths)).run schedule
    exact ⟨hnoted.completed,
      hnoted.le_length_results.trans hsound.length_results_le, hnoted.total⟩
  · intro paths records t h
    have hlength := h.gives.perm.length_eq
    rw [List.length_map] at hlength
    cases h with
    | nothing => exact ⟨rfl, ⟨[], rfl, List.Perm.refl _, by simp⟩, rfl, rfl, rfl,
        rfl, rfl, rfl, rfl⟩
    | @finished _ schedule g hg hstop =>
        have hnoted := (Ingestion.noted_start paths (p.workersFor m paths)).run
          (p.processFile m) schedule
        rw [← hg, Nat.zero_add] at hnoted
        obtain ⟨hcount, hk, htold⟩ := hnoted.at_end hstop
        rw [← hk, hlength] at hnoted
        have hsnapshots := hnoted.snapshots
        have htotals := hnoted.totals
        rw [htold] at hsnapshots htotals
        rw [Tracker.finish_of_listened hnoted.listened]
        refine ⟨?_, ⟨_, rfl, hsnapshots, htotals⟩, rfl, rfl, rfl,
          hnoted.completed, hcount .processed, hcount .skipped,
          hcount .errored⟩
        have hnumbers := hsnapshots.length_eq
        rw [List.length_map, List.length_range'] at hnumbers
        rw [List.length_append, hnumbers, List.length_singleton]
  · rw [tracker_processDirectory_of_error h]
    exact ⟨_, rfl, rfl, rfl, rfl, rfl, rfl⟩

theorem checkRoot_oneThreadLeft :
    oneThreadLeft.fs.checkRoot "/e" = .error (.rootNotFound "/e") := by
  have hfind : oneThreadLeft.fs.find "/e".toList = .error .notFound := by
    simp [oneThreadLeft, Walk.linkedFiles, FileSystem.find, FileSystem.follow,
      Path.isAbsolute, Text.splitOn, Trail.follow, Trail.entries, List.lookup,
      Text.byteSize, nameLimit, show 'e'.utf8Size = 1 from rfl]
  unfold FileSystem.checkRoot
  rw [hfind]

/-- A file, a directory, a missing file, and the file again. -/
def fourPaths : List Path := ["/r/a.rs", "/r/d", "/r/e", "/r/a.rs"]

/-- Four paths are told of, and a root that is missing. -/
theorem listener_is_told_of_four_paths :
    (∃ records t, ofLinkedFiles.Ends oneThreadLeft {} fourPaths records t
      ∧ t.notices.length = 5 ∧ t.progress.processed = 2
      ∧ t.progress.skipped = 1 ∧ t.progress.errors = 1)
    ∧ (ofLinkedFiles.processDirectory oneThreadLeft "/e" true {}).1
      = .error (.rootNotFound "/e")
    ∧ ∃ q : Progress, (ofLinkedFiles.processDirectory oneThreadLeft "/e" true
        {}).2.1.notices = [q] ∧ q.isComplete = true := by
  have h := listener_is_told_of_each_path ofLinkedFiles oneThreadLeft
  have hends := h.2.2.1 fourPaths
  obtain ⟨hlength, -, -, -, -, -, hprocessed, hskipped, herrors⟩ :=
    h.2.1 _ _ _ hends
  have hread : (fourPaths.map (ofLinkedFiles.processFile oneThreadLeft)).map
      FileRecord.outcome = [.processed, .skipped, .errored, .processed] := by
    obtain ⟨hfile, hdirectory, hmissing⟩ := processFile_oneThreadLeft
    simp only [fourPaths, List.map_cons, List.map_nil, hfile, hdirectory,
      hmissing]
    rfl
  have houtcomes := hends.gives.perm.map FileRecord.outcome
  rw [houtcomes.count_eq, hread] at hprocessed hskipped herrors
  have hroot : (ofLinkedFiles.processDirectory oneThreadLeft "/e" true {}).1
      = .error (.rootNotFound "/e") := by
    unfold processDirectory collectFiles
    rw [checkRoot_oneThreadLeft]
  obtain ⟨q, hq, hcomplete, -⟩ := h.2.2.2 "/e" true _ hroot
  exact ⟨⟨_, _, hends, hlength, hprocessed, hskipped, herrors⟩, hroot, q, hq,
    hcomplete⟩

end Processor

end SourceDigest
