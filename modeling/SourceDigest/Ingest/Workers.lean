/-
Ingestion by several workers that share a queue of paths.

Each worker takes a path from the queue, reads it into a record, adds the
record to the results, counts it, and tells the listener how far all is.
The last two are two steps, so that notices may overtake each other.

Workers take their steps in any order. A state and a worker determine the
next state; a schedule tells who steps when.
-/
import SourceDigest.Files.Collectors
import SourceDigest.Ingest.Pool
import SourceDigest.Ingest.Progress
import SourceDigest.Ingest.Read

namespace SourceDigest

/-- What a worker is about to do. -/
inductive Worker where
  /-- To take a path from the queue. -/
  | idle
  | reading (path : Path)
  /-- To add a record to the results. -/
  | delivering (r : FileRecord)
  | counting (outcome : FileOutcome) (path : Path)
  /-- To tell the listener. -/
  | telling (p : Progress)
  | stopped
deriving DecidableEq

/-- The shared queue and results, the progress, and what the workers are
about to do. -/
structure Ingestion where
  queue : WorkQueue Path
  results : List FileRecord := []
  tracker : Tracker
  workers : List Worker
deriving DecidableEq

namespace Ingestion

/-- The start: all paths are queued. -/
def start (paths : List Path) (tracker : Tracker) (workers : Nat) : Ingestion where
  queue := paths
  tracker := tracker
  workers := List.replicate workers .idle

/-- Sets what a worker is about to do. -/
def turn (g : Ingestion) (i : Nat) (w : Worker) : Ingestion :=
  { g with workers := g.workers.set i w }

/-- The step of one worker. -/
def step (read : Path → FileRecord) (g : Ingestion) (i : Nat) : Ingestion :=
  match g.workers[i]? with
  | some .idle =>
    match g.queue.pop with
    | (some path, rest) => { g with queue := rest }.turn i (.reading path)
    | (none, _) => g.turn i .stopped
  | some (.reading path) => g.turn i (.delivering (read path))
  | some (.delivering r) =>
    { g with results := g.results ++ [r] }.turn i (.counting r.outcome r.path)
  | some (.counting outcome path) =>
    let progress := g.tracker.progress.record outcome path
    { g with tracker := { g.tracker with progress } }.turn i (.telling progress)
  | some (.telling p) =>
    let told := if g.tracker.listened then g.tracker.notices ++ [p] else g.tracker.notices
    { g with tracker := { g.tracker with notices := told } }.turn i .idle
  | some .stopped | none => g

/-- The state after the steps of a schedule. -/
def run (read : Path → FileRecord) (g : Ingestion) (schedule : List Nat) : Ingestion :=
  schedule.foldl (step read) g

end Ingestion

/-- What an ingestion runs on. -/
structure Machine where
  fs : FileSystem
  cores : Nat := 1
  spawner : Spawner := {}
  refusals : Refusals := fun _ => none

/-- How files are taken in: which, and how. -/
structure Processor where
  selection : Selection
  settings : IngestSettings := {}

namespace Processor

/-- The walk over a root. -/
def walk (p : Processor) (m : Machine) (root : Path) : Walk :=
  ⟨m.fs, root, p.selection, p.settings.followSymlinks⟩

/-- The number of collectors. -/
def collectors (p : Processor) (m : Machine) : Nat :=
  if p.settings.parallelCollectors = 0 then p.settings.threadsOn m.cores
  else p.settings.parallelCollectors

/-- The files below a root that are taken, in the order of their paths, and
the machine after that. -/
def collectFiles (p : Processor) (m : Machine) (root : Path) (parallel : Bool) :
    Except ScanError (List Path) × Machine :=
  match m.fs.checkRoot root with
  | .error e => (.error e, m)
  | .ok _ =>
    if parallel then
      let (threads, spawner) := m.spawner.pool (p.collectors m)
      (.ok ((p.walk m root).collectBy (drainers threads) p.settings.collectorBatchSize),
        { m with spawner })
    else (.ok (p.walk m root).collect, m)

/-- Reads a path as set. -/
def processFile (p : Processor) (m : Machine) (path : Path) : FileRecord :=
  m.fs.readRecord m.refusals p.settings path

/-- The records of some paths, in the order they were finished, the tracker
at the end, and the machine after that. A worker takes five steps for a
path, and one more to stop. -/
def processPaths (p : Processor) (m : Machine) (paths : List Path) (tracker : Tracker) :
    List FileRecord × Tracker × Machine :=
  let tracker := tracker.start paths.length
  if paths = [] then ([], tracker.finish, m)
  else
    let (threads, spawner) := m.spawner.pool (min (p.settings.threadsOn m.cores) paths.length)
    let workers := drainers threads
    let finished := (Ingestion.start paths tracker workers).run (p.processFile m)
      (inTurn workers (5 * paths.length + 1))
    (finished.results, finished.tracker.finish, { m with spawner })

/-- The records of the files below a root, the tracker at the end, and the
machine after that. -/
def processDirectory (p : Processor) (m : Machine) (root : Path) (parallel : Bool)
    (tracker : Tracker) : Except ScanError (List FileRecord) × Tracker × Machine :=
  let tracker := tracker.setPhase .collecting
  match p.collectFiles m root parallel with
  | (.error e, m) => (.error e, tracker.finish, m)
  | (.ok files, m) =>
    let (records, tracker, m) := p.processPaths m files tracker
    (.ok records, tracker, m)

end Processor

end SourceDigest
