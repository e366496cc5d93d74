/-
File systems as values: files with content and time, directories, and
symbolic links.

A path is followed name by name from the root or from the working
directory. Empty names and `.` stay, `..` goes to the directory above,
and a link is followed from the directory that holds it, wherever in the
path it stands. A name behind a file is trouble, and so are more than
forty links on one way.
-/
import SourceDigest.Path
import SourceDigest.Text.Utf8

namespace SourceDigest

/-- What stands at a place in a file system. -/
inductive FileNode where
  /-- A file with its content and the second of its last change. -/
  | file (content : Bytes) (modified : Int)
  | directory (entries : List (Text × FileNode))
  | link (target : Path)

/-- The named nodes of a directory. -/
abbrev Entries := List (Text × FileNode)

/-- Why a path leads to nothing, or to nothing of use. -/
inductive FileTrouble where
  | notFound
  | notADirectory
  | isADirectory
  | nameTooLong
  | tooManyLinks
  | permissionDenied
deriving DecidableEq, Repr

/-- The trouble in words, with its number. -/
def FileTrouble.message : FileTrouble → Text
  | notFound => "No such file or directory (os error 2)"
  | notADirectory => "Not a directory (os error 20)"
  | isADirectory => "Is a directory (os error 21)"
  | nameTooLong => "File name too long (os error 36)"
  | tooManyLinks => "Too many levels of symbolic links (os error 40)"
  | permissionDenied => "Permission denied (os error 13)"

/-- The most links that are followed on one way. -/
def linkLimit : Nat := 40

/-- The most bytes that a name may have. -/
def nameLimit : Nat := 255

/-- The directories from a place up to the root, each with its name; the
root has none. -/
structure Trail where
  /-- The directories below the root, the innermost first. -/
  below : List (Text × Entries)
  top : Entries

namespace Trail

/-- The entries of the innermost directory. -/
def entries (t : Trail) : Entries :=
  match t.below with
  | [] => t.top
  | (_, es) :: _ => es

/-- The trail of the directory above; the root is above itself. -/
def up (t : Trail) : Trail := { t with below := t.below.tail }

def enter (t : Trail) (name : Text) (es : Entries) : Trail :=
  { t with below := (name, es) :: t.below }

/-- The names from the root down. -/
def names (t : Trail) : List Text := (t.below.map Prod.fst).reverse

end Trail

/-- Where following a path has led. -/
inductive Arrival where
  | directory (at_ : Trail)
  | file (above : Trail) (name : Text) (content : Bytes) (modified : Int)
  /-- The last name is missing from its directory. -/
  | missing (above : Trail) (name : Text)

/-- Follows some names, given how many links may be followed. -/
def Trail.follow (at_ : Trail) (links : Nat) (names : List Text) : Except FileTrouble Arrival :=
  match names with
  | [] => .ok (.directory at_)
  | name :: rest =>
    if name = [] ∨ name = ['.'] then at_.follow links rest
    else if name = ['.', '.'] then at_.up.follow links rest
    else if nameLimit < Text.byteSize name then .error .nameTooLong
    else
      match at_.entries.lookup name with
      | none => if rest = [] then .ok (.missing at_ name) else .error .notFound
      | some (.file content modified) =>
        if rest = [] then .ok (.file at_ name content modified) else .error .notADirectory
      | some (.directory es) => (at_.enter name es).follow links rest
      | some (.link target) =>
        match links with
        | 0 => .error .tooManyLinks
        | links + 1 =>
          Trail.follow (if Path.isAbsolute target then ⟨[], at_.top⟩ else at_) links
            (Text.splitOn '/' target ++ rest)
termination_by (links, names.length)

namespace FileNode

/-- A directory's entries with a node under a name, which it may have had
before. -/
def putEntry (name : Text) (n : FileNode) : Entries → Entries
  | [] => [(name, n)]
  | e :: rest => if e.1 = name then (name, n) :: rest else e :: putEntry name n rest

/-- A directory's entries with a node further down; directories on the way
are made where they are missing. -/
def put (n : FileNode) : List Text → Entries → Entries
  | [], es => es
  | [name], es => putEntry name n es
  | name :: rest, es =>
    let inner :=
      match es.lookup name with
      | some (.directory inner) => inner
      | _ => []
    putEntry name (.directory (put n rest inner)) es

end FileNode

/-- A file system and the directory that relative paths start from. -/
structure FileSystem where
  top : Entries
  /-- The names of the working directory from the root down. -/
  here : List Text

namespace FileSystem

/-- The trail of the directory with some names; names that are missing are
empty directories. -/
def trailOf (names : List Text) (t : Trail) : Trail :=
  names.foldl (fun t name =>
    t.enter name
      (match t.entries.lookup name with
      | some (.directory es) => es
      | _ => [])) t

/-- Follows a path. -/
def follow (fs : FileSystem) (path : Path) : Except FileTrouble Arrival :=
  let top : Trail := ⟨[], fs.top⟩
  if path = [] then .error .notFound
  else if Path.isAbsolute path then top.follow linkLimit (Text.splitOn '/' path)
  else (trailOf fs.here top).follow linkLimit (Text.splitOn '/' path)

/-- The file or directory that a path leads to. -/
def find (fs : FileSystem) (path : Path) : Except FileTrouble FileNode :=
  match fs.follow path with
  | .ok (.directory t) => .ok (.directory t.entries)
  | .ok (.file _ _ content modified) => .ok (.file content modified)
  | .ok (.missing ..) => .error .notFound
  | .error e => .error e

/-- Whether a path leads to a file. -/
def isFile (fs : FileSystem) (path : Path) : Bool :=
  match fs.find path with
  | .ok (.file ..) => true
  | _ => false

/-- The content of the file at a path. -/
def read (fs : FileSystem) (path : Path) : Except FileTrouble Bytes :=
  match fs.find path with
  | .ok (.file content _) => .ok content
  | .ok _ => .error .isADirectory
  | .error e => .error e

/-- The content of the file at a path, if it is well-formed text. -/
def readText? (fs : FileSystem) (path : Path) : Option Text :=
  (fs.read path).toOption.bind Text.ofBytes?

/-- The entries of the directory at a path. -/
def entries (fs : FileSystem) (path : Path) : Except FileTrouble Entries :=
  match fs.find path with
  | .ok (.directory es) => .ok es
  | .ok _ => .error .notADirectory
  | .error e => .error e

/-- Writes a file, in place of what it held before or as a new entry of a
directory. -/
def write (fs : FileSystem) (path : Path) (content : Bytes) (modified : Int) :
    Except FileTrouble FileSystem :=
  let written (above : Trail) (name : Text) : FileSystem :=
    { fs with top := FileNode.put (.file content modified) (above.names ++ [name]) fs.top }
  match fs.follow path with
  | .ok (.directory _) => .error .isADirectory
  | .ok (.file above name _ _) => .ok (written above name)
  | .ok (.missing above name) => .ok (written above name)
  | .error e => .error e

end FileSystem

end SourceDigest
