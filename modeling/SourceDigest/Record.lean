/-
Records: what became of each path that was taken in.

A record says whether its file was read, skipped for a reason, or could
not be read, and carries the content when there is any. Records do not
change; a summary makes a new one.
-/
import SourceDigest.Path
import SourceDigest.Entity
import SourceDigest.Text.Utf8

namespace SourceDigest

/-- Why a file was passed over without being read. -/
inductive SkipReason where
  | binary
  | tooLarge
  | notAFile
deriving DecidableEq, Repr

/-- What reading a path came to. -/
inductive ReadStatus where
  /-- Nothing has been read yet. -/
  | pending
  | processed
  | skipped (reason : SkipReason)
  | errored (message : Text)
deriving DecidableEq, Repr

/-- How progress counts a path. -/
inductive FileOutcome where
  | processed
  | skipped
  | errored
deriving DecidableEq, Repr

/-- One path that was taken in. -/
structure FileRecord where
  path : Path
  status : ReadStatus := .pending
  content : Option Bytes := none
  byteSize : Nat := 0
  lineCount : Nat := 0
  summarized : Bool := false
  firstLines : Option Text := none
  snippets : Option (List Text) := none
  entities : List Entity := []
  formattedEntities : Option Text := none
deriving DecidableEq

/-- The number of lines of some bytes: the line feeds, and one more for
what follows the last of them. -/
def countLines (bs : Bytes) : Nat :=
  match bs.getLast? with
  | none => 0
  | some b => bs.count 0x0A + if b = 0x0A then 0 else 1

/-- How many bytes at the start of a file are looked at to tell whether it
is binary. -/
def binarySample : Nat := 8192

/-- Content with a zero byte near its start is binary. -/
def isBinary (bs : Bytes) : Bool := (bs.take binarySample).contains 0

namespace FileRecord

/-- The record of a file that was read. -/
def processed (path : Path) (content : Bytes) : FileRecord :=
  { path, status := .processed, content := some content, byteSize := content.length,
    lineCount := countLines content }

/-- The record of a file that was passed over. -/
def skipped (path : Path) (byteSize : Nat) (reason : SkipReason) : FileRecord :=
  { path, status := .skipped reason, byteSize }

/-- The record of a file that could not be read. -/
def errored (path : Path) (message : Text) : FileRecord := { path, status := .errored message }

def isProcessed (r : FileRecord) : Bool := r.status == .processed

/-- How progress counts the record. -/
def outcome (r : FileRecord) : FileOutcome :=
  match r.status with
  | .errored _ => .errored
  | .skipped _ => .skipped
  | .processed | .pending => .processed

/-- The content as text; what is malformed shows as U+FFFD. -/
def text (r : FileRecord) : Text := (r.content.map Text.ofBytes).getD []

def fileName (r : FileRecord) : Text := (Path.fileName? r.path).getD []

def fileExtension (r : FileRecord) : Text := (Path.extension? r.path).getD []

/-- Why the record carries no content. -/
def dropReason (r : FileRecord) : Text :=
  match r.status with
  | .errored message => "error: " ++ message
  | .skipped .binary => "skipped: binary"
  | .skipped .tooLarge => "skipped: too large"
  | .skipped .notAFile => "skipped: not a file"
  | .processed | .pending => "skipped"

end FileRecord

end SourceDigest
