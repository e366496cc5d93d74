/-
Collection: which files below a root are taken, found by one walk.

The walk goes into real directories only, never through a link to one,
and passes over a directory that the selection does not enter together
with everything below it. A file is taken, or a link that leads to a file
when links are followed, if the selection takes its path. Paths are seen
from the root.

A root is a directory: that is checked before any walk
(`FileSystem.checkRoot`). Over a root that is itself a file a recursive walk
would come upon that file, where here nothing is listed, as there is nothing
in the listing that collectors share.
-/
import SourceDigest.Error
import SourceDigest.Files.Tree
import SourceDigest.Selection

namespace SourceDigest

/-- What a walk looks through, and what it takes. -/
structure Walk where
  fs : FileSystem
  root : Path
  selection : Selection
  /-- Whether a link that leads to a file counts as a file. -/
  followLinks : Bool

namespace Walk

/-- Whether a node at a path is a file or counts as one. -/
def isFile (w : Walk) (path : Path) : FileNode → Bool
  | .file .. => true
  | .link _ => w.followLinks && w.fs.isFile path
  | .directory _ => false

/-- Whether the selection takes a path as seen from the root. -/
def takes (w : Walk) (path : Path) : Bool := w.selection.takes (Path.relativeTo w.root path)

/-- Whether the selection enters a directory as seen from the root. -/
def enters (w : Walk) (path : Path) : Bool := w.selection.enters (Path.relativeTo w.root path)

/-- Whether a root is the sign for standard input, below which there are no
files. -/
def isStandardInput (root : Path) : Bool := root == ['-']

mutual
/-- The files that are taken at a path and below it. -/
def filesAt (w : Walk) (path : Path) : FileNode → List Path
  | .directory entries => if w.enters path then filesBelow w path entries else []
  | .file content modified =>
    if w.isFile path (.file content modified) && w.takes path then [path] else []
  | .link target => if w.isFile path (.link target) && w.takes path then [path] else []

/-- The files that are taken below a directory with some entries. -/
def filesBelow (w : Walk) (dir : Path) : Entries → List Path
  | [] => []
  | (name, n) :: rest => filesAt w (Path.join dir name) n ++ filesBelow w dir rest
end

/-- The entries of a directory; there are none when it cannot be listed, as a
root that is itself a file cannot. -/
def listing (w : Walk) (dir : Path) : Entries :=
  if isStandardInput dir then []
  else
    match w.fs.entries dir with
    | .ok entries => entries
    | .error _ => []

/-- All files that are taken, in the order of their paths. -/
def collect (w : Walk) : List Path := (w.filesBelow w.root (w.listing w.root)).mergeSort Path.le

end Walk

/-- Why a root cannot be walked, if it cannot. -/
def FileSystem.checkRoot (fs : FileSystem) (root : Path) : Except ScanError Unit :=
  match fs.find root with
  | .ok (.directory _) => .ok ()
  | .ok _ => .error (.notADirectory root)
  | .error .notFound => .error (.rootNotFound root)
  | .error trouble => .error (.unreadable root trouble.message)

end SourceDigest
