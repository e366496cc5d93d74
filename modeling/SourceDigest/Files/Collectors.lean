/-
Collection by several collectors that share a queue of directories.

Each collector takes a directory from the queue, lists it, holds back the
files that it finds until there are enough of them, and puts the
directories that it finds into the queue. A collector that finds the queue
empty waits as long as another one is at work, since that one may find
more directories; when none is, all is done.

Collectors take their steps in any order. A state and a collector
determine the next state; a schedule tells who steps when.
-/
import SourceDigest.Files.Collect

namespace SourceDigest

/-- What a collector is about to do, and the files that it holds back. -/
inductive Collector where
  /-- To ask for a directory. -/
  | asking (batch : List Path)
  /-- To list a directory. -/
  | listing (dir : Path) (batch : List Path)
  /-- To hand over the files, if there are enough of them. -/
  | holding (dir : Path) (found : List Path) (batch : List Path)
  /-- To put the directories that it found in a directory into the queue. -/
  | publishing (dir : Path) (found : List Path) (batch : List Path)
  /-- To hand over the last files. -/
  | leaving (batch : List Path)
  | stopped
deriving DecidableEq, Repr

/-- The shared queue, the files handed over, and what the collectors are
about to do. -/
structure Collection where
  queue : List Path
  /-- How many collectors are at work on a directory. -/
  active : Nat := 0
  done : Bool := false
  files : List Path := []
  collectors : List Collector
deriving DecidableEq, Repr

namespace Walk

/-- The directories to enter and the files to take among the entries of a
directory. -/
def listDirectory (w : Walk) (dir : Path) : List Path × List Path :=
  (w.listing dir).foldr
    (fun (name, n) (dirs, files) =>
      let path := Path.join dir name
      match n with
      | .directory _ => (if w.enters path then path :: dirs else dirs, files)
      | _ => (dirs, if w.isFile path n && w.takes path then path :: files else files))
    ([], [])

end Walk

namespace Collection

/-- The start: only the root is queued. -/
def start (w : Walk) (collectors : Nat) : Collection where
  queue := [w.root]
  collectors := List.replicate collectors (.asking [])

/-- A collector that asks gets a directory, leaves, or waits. -/
def next (c : Collection) (i : Nat) (batch : List Path) : Collection :=
  match c.queue with
  | dir :: rest =>
    { c with
      queue := rest
      active := c.active + 1
      collectors := c.collectors.set i (.listing dir batch) }
  | [] =>
    if c.done ∨ c.active = 0 then
      { c with done := true, collectors := c.collectors.set i (.leaving batch) }
    else c

/-- A collector is through with its directory. -/
def complete (c : Collection) (i : Nat) (found batch : List Path) : Collection :=
  let queue := c.queue ++ found
  let active := c.active - 1
  { c with
    queue, active
    done := c.done || (queue.isEmpty && active == 0)
    collectors := c.collectors.set i (.asking batch) }

/-- The step of one collector. -/
def step (w : Walk) (batchSize : Nat) (c : Collection) (i : Nat) : Collection :=
  match c.collectors[i]? with
  | some (.asking batch) => c.next i batch
  | some (.listing dir batch) =>
    let (dirs, files) := w.listDirectory dir
    { c with collectors := c.collectors.set i (.holding dir dirs (batch ++ files)) }
  | some (.holding dir found batch) =>
    if max 1 batchSize ≤ batch.length then
      { c with
        files := c.files ++ batch
        collectors := c.collectors.set i (.publishing dir found []) }
    else { c with collectors := c.collectors.set i (.publishing dir found batch) }
  | some (.publishing _ found batch) => c.complete i found batch
  | some (.leaving batch) =>
    { c with files := c.files ++ batch, collectors := c.collectors.set i .stopped }
  | some .stopped | none => c

/-- The state after the steps of a schedule. -/
def run (w : Walk) (batchSize : Nat) (c : Collection) (schedule : List Nat) : Collection :=
  schedule.foldl (step w batchSize) c

end Collection

-- ================================================================== schedules

mutual
/-- The number of directories at a node and below it. -/
def FileNode.directories : FileNode → Nat
  | .directory entries => 1 + directoriesBelow entries
  | .file .. | .link _ => 0

/-- The number of directories among some entries and below them. -/
def FileNode.directoriesBelow : Entries → Nat
  | [] => 0
  | (_, n) :: rest => n.directories + directoriesBelow rest
end

/-- A schedule in which one takes so many steps after the other. -/
def inTurn (count steps : Nat) : List Nat :=
  (List.range count).flatMap fun i => List.replicate steps i

namespace Walk

/-- All files that are taken, found by some collectors. A collector takes
four steps for a directory, and two more to stop. -/
def collectBy (w : Walk) (collectors batchSize : Nat) : List Path :=
  let directories := 1 + FileNode.directoriesBelow (w.listing w.root)
  let schedule := inTurn collectors (4 * directories + 2)
  ((Collection.start w collectors).run w batchSize schedule).files.mergeSort Path.le

end Walk

end SourceDigest
