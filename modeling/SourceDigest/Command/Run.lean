/-
Carrying out requests: from arguments and a file system to what is
printed, what is written, and the exit code.

Trouble with the configuration, the root or the output file ends a run
with exit code one and a line that says so; arguments that make no sense
end it with exit code two. What is wrong with single files is part of the
document.
-/
import SourceDigest.Command.Request
import SourceDigest.Data.Json
import SourceDigest.Entities.Hybrid
import SourceDigest.Ingest.Workers
import SourceDigest.Output.Document
import SourceDigest.Scoring.Report
import SourceDigest.Scoring.Scorer
import SourceDigest.Settings.Load
import SourceDigest.Summary.Document

namespace SourceDigest

/-- What a run prints. -/
inductive Printed where
  | text (t : Text)
  | data (d : Datum)

/-- What a run prints as text; data ends its line. -/
def Printed.toText : Printed → Text
  | text t => t
  | data d => d.toJson ++ ['\n']

/-- How a run ends. -/
structure Outcome where
  exit : Nat := 0
  printed : Printed := .text []
  /-- What is said of a failure. -/
  complaint : Option Text := none
  /-- A file that is written. -/
  written : Option (Path × Text) := none

namespace Outcome

/-- A run that failed, for a reason. -/
def failed (reason : Text) : Outcome := { exit := 1, complaint := some ("Error: " ++ reason) }

/-- A run that could not write its file. -/
def failedToCreate (path : Path) : Outcome := failed ("Failed to create output file: " ++ path)

end Outcome

/-- Settings with the filters of a request on top. -/
def FilterOptions.apply (o : FilterOptions) (s : Settings) : Settings :=
  { s with
    ignorePatterns := s.ignorePatterns ++ o.ignore
    includePatterns := if o.includes = [] then s.includePatterns else o.includes
    useGitignore := s.useGitignore && !o.noGitignore }

namespace ScanOptions

/-- Settings with everything that a request to scan sets. -/
def apply (o : ScanOptions) (s : Settings) : Settings :=
  let s := o.filter.apply s
  { s with
    scoringEnabled := s.scoringEnabled || o.select
    ingest := { s.ingest with
      threads := o.threads.getD s.ingest.threads
      maxFileSize := o.maxSize.getD s.ingest.maxFileSize }
    summary := { s.summary with
      enabled := s.summary.enabled && !o.noSummary
      sizeThreshold := o.summaryThreshold.getD s.summary.sizeThreshold
      entities := { s.summary.entities with
        enabled := s.summary.entities.enabled || o.entities.isSome
        method := o.entities.getD s.summary.entities.method } } }

/-- The records of the files that a scan is about, or what failed. -/
def records (o : ScanOptions) (s : Settings) (m : Machine) (now : Moment) :
    Except Text (List FileRecord) :=
  let root := o.filter.path
  let selection := s.selection m.fs root
  let processor : Processor := ⟨selection, s.ingest⟩
  if s.scoringEnabled then
    let scorer : Scorer := ⟨s.scoring, selection, now, s.ingest.followSymlinks⟩
    match scorer.scoreRepository m.fs root with
    | .error _ => .error ("Failed to score " ++ root)
    | .ok scored =>
      let paths := (Scorer.selected scored).map (Path.join root)
      .ok (processor.processPaths m paths {}).1
  else
    match (processor.processDirectory m root (!o.sequential) {}).1 with
    | .error _ => .error ("Failed to scan " ++ root)
    | .ok records => .ok records

/-- The text of a document in a format. -/
def written (format : DocumentFormat) (d : ScanDocument) : Text :=
  match format with
  | .plain => d.plain
  | .json => d.toDatum.toJson ++ ['\n']

/-- Carries out a request to scan. -/
def run (o : ScanOptions) (s : Settings) (m : Machine) (now : Moment) : Outcome :=
  let s := o.apply s
  match o.records s m now with
  | .error reason => .failed reason
  | .ok records =>
    let records := records.map (s.summary.summarized s.summary.entities.finder)
    let document := written o.format (.ofRecords o.filter.path records)
    match o.output with
    | none => { printed := .text document }
    | some path =>
      match m.fs.write path (Text.toBytes document) now.seconds with
      | .ok _ => { written := some (path, document) }
      | .error _ => .failedToCreate path

end ScanOptions

namespace ScoreOptions

/-- Settings with everything that a request to score sets. -/
def apply (o : ScoreOptions) (s : Settings) : Settings :=
  let s := o.filter.apply s
  { s with
    scoring := { s.scoring with
      inclusionThreshold := o.threshold.getD s.scoring.inclusionThreshold
      densityMethod := o.density.getD s.scoring.densityMethod } }

/-- Carries out a request to score. -/
def run (o : ScoreOptions) (s : Settings) (m : Machine) (now : Moment) : Outcome :=
  let s := o.apply s
  let root := o.filter.path
  let scorer : Scorer := ⟨s.scoring, s.selection m.fs root, now, s.ingest.followSymlinks⟩
  match scorer.scoreRepository m.fs root with
  | .error _ => .failed ("Failed to score " ++ root)
  | .ok scored =>
    if o.selectedOnly then
      { printed := .text ((Scorer.selected scored).flatMap fun path => path ++ ['\n']) }
    else { printed := .data (s.scoring.report scored) }

end ScoreOptions

namespace Request

/-- The settings of a request: from the file that it names, or the file in
the working directory, or the defaults. -/
def settings (r : Request) (fs : FileSystem) : Except Text Settings :=
  match r.config with
  | none => .ok ((Settings.discover? fs).getD {})
  | some path =>
    match Settings.load fs path with
    | .ok s => .ok s
    | .error .unreadable => .error ("failed to read config " ++ path)
    | .error .malformed => .error ("failed to parse config " ++ path)

/-- Carries out a request. -/
def run (r : Request) (m : Machine) (now : Moment) : Outcome :=
  match r.settings m.fs with
  | .error reason => .failed reason
  | .ok s =>
    match r.command with
    | .scan o => o.run s m now
    | .score o => o.run s m now

/-- How the program is called. -/
def usage : Text := "Usage: reposift [OPTIONS] <COMMAND>\n\nCommands:\n  scan\n  score\n  help\n"

/-- The name and version of the program. -/
def versionLine : Text := "reposift 0.3.0\n"

/-- Carries out what some arguments ask for. -/
def runArguments (arguments : List Text) (m : Machine) (now : Moment) : Outcome :=
  match ofArguments arguments with
  | .ok r => r.run m now
  | .error .misuse => { exit := 2 }
  | .error .help => { printed := .text usage }
  | .error .version => { printed := .text versionLine }

end Request

end SourceDigest
