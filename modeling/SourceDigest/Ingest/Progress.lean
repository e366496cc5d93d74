/-
Progress of an ingestion, and a registry of jobs with progress of their
own.

A tracker counts finished paths by outcome and notes every notice that it
gives to its listener: one for each finished path and one for the end.

The registry hands out trackers. One that has been handed out can be used
on after its job has been dropped or replaced; what happens to it then
does not concern the registry any more.
-/
import SourceDigest.Record
import SourceDigest.Table

namespace SourceDigest

/-- What an ingestion is at. -/
inductive Phase where
  | idle
  | collecting
  | processing
  | done
deriving DecidableEq, Repr

/-- How far an ingestion has come. -/
structure Progress where
  total : Nat := 0
  processed : Nat := 0
  skipped : Nat := 0
  errors : Nat := 0
  /-- The path that was finished last, until the end. -/
  current : Option Path := none
  isComplete : Bool := false
  phase : Phase := .idle
deriving DecidableEq, Repr

namespace Progress

/-- The number of finished paths. -/
def completed (p : Progress) : Nat := p.processed + p.skipped + p.errors

/-- The share of finished paths in hundredths. -/
def percentage (p : Progress) : Float :=
  if p.total = 0 then 0.0 else p.completed.toFloat / p.total.toFloat * 100.0

def setPhase (phase : Phase) (p : Progress) : Progress := { p with phase }

/-- The total is known and processing begins. -/
def start (total : Nat) (p : Progress) : Progress := { p with total, phase := .processing }

/-- One more path is finished. -/
def record (outcome : FileOutcome) (path : Path) (p : Progress) : Progress :=
  let p := { p with current := some path }
  match outcome with
  | .processed => { p with processed := p.processed + 1 }
  | .skipped => { p with skipped := p.skipped + 1 }
  | .errored => { p with errors := p.errors + 1 }

/-- Everything is finished. -/
def finish (p : Progress) : Progress :=
  { p with isComplete := true, phase := .done, current := none }

end Progress

/-- Progress and the notices given of it. -/
structure Tracker where
  progress : Progress := {}
  /-- Whether anyone listens. -/
  listened : Bool := true
  /-- What the listener has been told, in order. -/
  notices : List Progress := []
deriving DecidableEq, Repr

namespace Tracker

/-- Tells the listener how far it is. -/
def notify (t : Tracker) : Tracker :=
  if t.listened then { t with notices := t.notices ++ [t.progress] } else t

def setPhase (phase : Phase) (t : Tracker) : Tracker :=
  { t with progress := t.progress.setPhase phase }

def start (total : Nat) (t : Tracker) : Tracker := { t with progress := t.progress.start total }

/-- Counts a finished path and tells of it. -/
def record (outcome : FileOutcome) (path : Path) (t : Tracker) : Tracker :=
  { t with progress := t.progress.record outcome path }.notify

/-- Ends and tells of it. -/
def finish (t : Tracker) : Tracker := { t with progress := t.progress.finish }.notify

end Tracker

-- =================================================================== registry

/-- A tracker and the moment it was made, in nanoseconds. -/
structure Job where
  tracker : Tracker
  created : Nat
deriving DecidableEq, Repr

/-- The trackers handed out, and which of them stands under which name. -/
structure Registry where
  /-- All trackers ever made, in the order they were made. -/
  made : List Job := []
  /-- The place of the tracker of each name in that order. -/
  names : Table Nat := []
deriving DecidableEq, Repr

namespace Registry

/-- Makes a tracker under a name, in place of any other, and tells its
place. -/
def create (r : Registry) (name : Text) (now : Nat) (tracker : Tracker) : Nat × Registry :=
  (r.made.length,
    { made := r.made ++ [⟨tracker, now⟩], names := r.names.put name r.made.length })

/-- The place of the tracker under a name. -/
def get? (r : Registry) (name : Text) : Option Nat := r.names.get? name

/-- The job at a place. -/
def job? (r : Registry) (place : Nat) : Option Job := r.made[place]?

/-- How far the job under a name is. -/
def snapshot? (r : Registry) (name : Text) : Option Progress :=
  (r.get? name).bind fun place => (r.job? place).map (·.tracker.progress)

/-- Changes the tracker at a place. -/
def update (r : Registry) (place : Nat) (f : Tracker → Tracker) : Registry :=
  { r with made := r.made.modify place fun j => { j with tracker := f j.tracker } }

/-- Takes a name away and tells the place of its tracker. -/
def remove (r : Registry) (name : Text) : Option Nat × Registry :=
  (r.get? name, { r with names := r.names.filter fun e => e.1 != name })

/-- Whether the job at a place is complete and has reached an age. -/
def isExpired (r : Registry) (now maxAge place : Nat) : Bool :=
  match r.job? place with
  | some j => j.tracker.progress.isComplete && maxAge ≤ now - j.created
  | none => false

/-- Drops the jobs that are complete and have reached an age, and tells how
many they were. -/
def expire (r : Registry) (now maxAge : Nat) : Nat × Registry :=
  let kept := r.names.filter fun e => !r.isExpired now maxAge e.2
  (r.names.length - kept.length, { r with names := kept })

/-- The number of names. -/
def size (r : Registry) : Nat := r.names.length

end Registry

end SourceDigest
