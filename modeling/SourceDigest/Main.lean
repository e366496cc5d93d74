/-
The command line.

The repository comes as a tape archive on standard input, so that a run
sees exactly what was packed:

    tar c . | reposift scan

The document goes to standard output or to the file that the arguments
name, in a directory that was packed; a complaint goes to standard error.
-/
import SourceDigest.Command.Run
import SourceDigest.Files.Archive
import Std.Time.DateTime.Timestamp

open SourceDigest

/-- The file system on standard input; a terminal has none. -/
def readRepository : IO FileSystem := do
  let input ← IO.getStdin
  if ← input.isTty then return ⟨[], []⟩
  let mut packed := ByteArray.empty
  repeat
    let chunk ← input.read 65536
    if chunk.isEmpty then break
    packed := packed ++ chunk
  return FileSystem.ofArchive packed.toList

/-- The time now. -/
def readClock : IO Moment := do
  let now ← Std.Time.Timestamp.now
  return ⟨now.toSecondsSinceUnixEpoch.toInt, now.val.nano.toInt.toNat⟩

/-- Writes the file of an outcome, if it has one. -/
def writeFile (outcome : Outcome) : IO Outcome := do
  match outcome.written with
  | none => return outcome
  | some (path, content) =>
    try
      IO.FS.writeFile (String.ofList path) (String.ofList content)
      return outcome
    catch _ => return .failedToCreate path

def main (arguments : List String) : IO UInt32 := do
  let fs ← readRepository
  let now ← readClock
  let outcome ← writeFile (Request.runArguments (arguments.map String.toList) { fs } now)
  (← IO.getStdout).putStr (String.ofList outcome.printed.toText)
  match outcome.complaint with
  | some complaint => (← IO.getStderr).putStrLn (String.ofList complaint)
  | none => pure ()
  return UInt32.ofNat outcome.exit
