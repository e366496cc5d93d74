/-
Reading single files into records.

Large files are taken as a whole at once, others piece by piece with room
made for the size they are said to have; either way all bytes are read.
What goes wrong is noted on the record.

A file can be looked at without being opened, which tells what it is and
how large. Its start and its content take opening it, and that may be
refused.
-/
import SourceDigest.Files.Tree
import SourceDigest.Record
import SourceDigest.Settings.Basic

namespace SourceDigest

/-- How the content of a file is read. -/
inductive ReadStrategy where
  | buffered
  | mapped
deriving DecidableEq, Repr

namespace ReadStrategy

/-- The strategy for a file of a size, when files from `threshold` on count
as large. An empty file never does. -/
def of (threshold size : Nat) : ReadStrategy :=
  if 0 < size ∧ threshold ≤ size then mapped else buffered

/-- The bytes of a file that is said to have a size: those that it was said
to have and those beyond. -/
def read (strategy : ReadStrategy) (size : Nat) (content : Bytes) : Bytes :=
  match strategy with
  | buffered => content.take size ++ content.drop size
  | mapped => content

end ReadStrategy

/-- Why files are not opened, by their paths; those without a reason are. -/
abbrev Refusals := Path → Option FileTrouble

namespace FileSystem

/-- The content of the file at a path, when it is opened. -/
def openFile (fs : FileSystem) (refusals : Refusals) (path : Path) : Except FileTrouble Bytes :=
  match refusals path with
  | some trouble => .error trouble
  | none => fs.read path

/-- The start of the file at a path, by which it is told whether it is
binary. -/
def sample (fs : FileSystem) (refusals : Refusals) (path : Path) : Except FileTrouble Bytes :=
  (fs.openFile refusals path).map (·.take binarySample)

/-- Reads a path into a record. -/
def readRecord (fs : FileSystem) (refusals : Refusals) (s : IngestSettings) (path : Path) :
    FileRecord :=
  match fs.find path with
  | .error trouble => .errored path trouble.message
  | .ok (.file content _) =>
    let size := content.length
    if s.sizeLimit < size then .skipped path size .tooLarge
    else
      match fs.sample refusals path with
      | .error trouble => .errored path trouble.message
      | .ok start =>
        if isBinary start then .skipped path size .binary
        else
          match fs.openFile refusals path with
          | .error trouble => .errored path trouble.message
          | .ok content =>
            .processed path ((ReadStrategy.of s.mapThreshold size).read size content)
  | .ok _ => .skipped path 0 .notAFile

end FileSystem

end SourceDigest
