/-
The scorer: how important the files of a repository are.

Six components make up a score: where a file lies and what it is called,
its type, how recent and how large it is, how dense its code is, and how
well it is connected by imports. Each is a weight times a number that
mostly lies between zero and one.

Names are matched in any case of letters. Times are seconds since the
epoch, the time that recency is measured against with its nanoseconds.
-/
import SourceDigest.Files.Collect
import SourceDigest.Files.Imports
import SourceDigest.Scoring.Score
import SourceDigest.Syntax.Reading
import SourceDigest.Text.Casing

namespace SourceDigest

/-- A moment, by the seconds since the epoch and the nanoseconds beyond. -/
structure Moment where
  seconds : Int
  nanos : Nat := 0
deriving DecidableEq, Repr

/-- What scores are made from. -/
structure Scorer where
  settings : ScoringSettings
  selection : Selection
  /-- The time that recency is measured against. -/
  now : Moment
  followLinks : Bool := true

namespace Scorer

/-- What lying in the root gives, of the structural weight. -/
def rootBonus : Double := 0.4

/-- What a well-known name in the root gives on top. -/
def importantFileBonus : Double := rootBonus / 2.0

/-- What lying in a well-known directory gives. -/
def importantDirBonus : Double := 0.4

/-- What the name of an entry point gives. -/
def entryPointBonus : Double := 0.3

def secondsPerDay : Double := 86400.0

/-- The globs of a list, in any case of letters. -/
def globs (patterns : List Text) : List Glob := patterns.map Glob.compileIgnoringCase

/-- Whether any of some patterns matches a path. -/
def matchesAny (patterns : List Text) (file : Text) : Bool := (globs patterns).any (·.isMatch file)

/-- Whether an extension is listed; the empty one never is. -/
def isListed (extensions : List Text) (ext : Text) : Bool :=
  ext ≠ [] && extensions.any (Text.sameAscii · ext)

-- ================================================================= components

/-- For where a file lies and what it is called. -/
def structural (s : Scorer) (file : Text) : Double :=
  let inRoot := !file.contains '/'
  let share := 0.0
  let share := if inRoot then share + rootBonus else share
  let share :=
    if inRoot && matchesAny s.settings.importantFiles file then share + importantFileBonus
    else share
  let share :=
    if s.settings.importantDirs.any fun dir =>
        Text.startsWith (Text.lower file) (Text.lower dir) then share + importantDirBonus
    else share
  let share :=
    if matchesAny s.settings.entryPoints file then share + entryPointBonus else share
  s.settings.weights.structural * share

/-- What follows the last dot of the last segment of a path. -/
def nameExtension (file : Text) : Text :=
  match Text.splitLast? '.' (Text.afterLast '/' file) with
  | some (_, ext) => ext
  | none => []

/-- The weight of the type of a file, if its type is known. -/
def typeWeight? (s : Scorer) (file : Text) : Option Double :=
  let ext := nameExtension file
  if isListed s.settings.sourceExtensions ext then some s.settings.sourceTypeWeight
  else if isListed s.settings.configExtensions ext then some s.settings.configTypeWeight
  else if isListed s.settings.docsExtensions ext then some s.settings.docsTypeWeight
  else none

/-- For the type of a file; tests have a weight of their own. -/
def fileType (s : Scorer) (file : Text) : Double :=
  match s.typeWeight? file with
  | none => 0.0
  | some weight =>
    if matchesAny s.settings.testPatterns file then
      s.settings.weights.fileType * s.settings.testTypeWeight
    else s.settings.weights.fileType * weight

/-- The days since a file was changed; a change to come is as one now. -/
def ageInDays (s : Scorer) (modified : Int) : Double :=
  if s.now.seconds < modified then 0.0
  else
    (.ofNat (s.now.seconds - modified).toNat + .ofNat s.now.nanos / 1000000000.0) / secondsPerDay

/-- For how recent a change is: it counts less by the day and, after some
days, nothing. -/
def recency (s : Scorer) (modified : Int) : Double :=
  let window := s.settings.recencyDays
  if window ≤ 0.0 then 0.0
  else
    let left := 1.0 - s.ageInDays modified / window
    s.settings.weights.recency * (if left > 0.0 then left else 0.0)

/-- For how small a file is; a large one counts nothing. -/
def size (s : Scorer) (bytes : Nat) : Double :=
  let large := s.settings.largeFileBytes
  if large = 0 ∨ large ≤ bytes then 0.0
  else s.settings.weights.size * (1.0 - .ofNat bytes / .ofNat large)

/-- For how dense the code of a source file is. -/
def codeDensity (s : Scorer) (fs : FileSystem) (full : Path) (file : Text) : Double :=
  let weight := s.settings.weights.codeDensity
  if weight ≤ 0.0 || !isListed s.settings.sourceExtensions ((Path.extension? full).getD []) then 0.0
  else
    match fs.read full with
    | .ok content => weight * .ofFloat (s.settings.densityMethod.density file (Text.ofBytes content))
    | .error _ => 0.0

/-- For how well a file is connected. -/
def dependency (s : Scorer) (graph : Option ImportGraph) (file : Text) : Double :=
  match graph with
  | some graph =>
    if s.settings.weights.dependency > 0.0 then
      s.settings.weights.dependency * .ofFloat (graph.connectivity file)
    else 0.0
  | none => 0.0

-- ===================================================================== scoring

/-- What is known of a file without reading it: the second of its last
change and its size. -/
structure Vitals where
  modified : Int
  bytes : Nat

/-- What is known of the file that a path leads to. -/
def vitals? (fs : FileSystem) (path : Path) : Option Vitals :=
  match fs.find path with
  | .ok (.file content modified) => some ⟨modified, content.length⟩
  | _ => none

/-- The score of the file at a path, which is taken from the root unless it
is absolute. -/
def scoreFile (s : Scorer) (fs : FileSystem) (graph : Option ImportGraph) (root path : Path) :
    ScoredFile :=
  let full := Path.join root path
  let file := Path.relativeTo root full
  let vitals := vitals? fs full
  ScoredFile.ofComponents file [
    ("code_density", s.codeDensity fs full file),
    ("dependency", s.dependency graph file),
    ("file_type", s.fileType file),
    ("recency", (vitals.map fun v => s.recency v.modified).getD 0.0),
    ("size", (vitals.map fun v => s.size v.bytes).getD 0.0),
    ("structure", s.structural file)] s.settings.inclusionThreshold

/-- The walk over a root. -/
def walk (s : Scorer) (fs : FileSystem) (root : Path) : Walk :=
  ⟨fs, root, s.selection, s.followLinks⟩

/-- The graph that scores are made with; there is none when it weighs
nothing. -/
def graph? (s : Scorer) (fs : FileSystem) (root : Path) (files : List Path) :
    Option ImportGraph :=
  if s.settings.weights.dependency > 0.0 then
    some (fs.importGraph root files s.settings.sourceExtensions)
  else none

/-- The scores of the files below a root that are taken, the highest
first. -/
def scoreRepository (s : Scorer) (fs : FileSystem) (root : Path) :
    Except ScanError (List ScoredFile) :=
  match fs.checkRoot root with
  | .error e => .error e
  | .ok _ =>
    let files := (s.walk fs root).collect
    let graph := s.graph? fs root files
    .ok ((files.map (s.scoreFile fs graph root)).mergeSort ScoredFile.le)

/-- The paths of the files that are included. -/
def selected (files : List ScoredFile) : List Path :=
  (files.filter (·.included)).map (·.path)

end Scorer

end SourceDigest
