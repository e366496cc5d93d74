/-
The files of a repository, and which of them an import leads to.

# Locations

A location is a path whose `.` and empty segments are dropped and whose
`..` segments take back the segment before; a path that leaves the
repository has none. A location is probed as it is written, then with
each known extension, then as a directory with an index file.

# Bare names

A path that no location answers is looked up by its last segment: among
the files of that name, or else among those with that name before the
first dot. Of several, one whose path ends like the specifier wins, then
the one that shares the most leading directories with the importer, then
the first by code points.
-/
import SourceDigest.Imports.Specifier

namespace SourceDigest

/-- The files of a repository, by their paths below its root, in the order
they were given. -/
structure FileIndex where
  files : List Text

namespace FileIndex

def ofList (files : List Text) : FileIndex := ⟨files⟩

/-- The number of files, each counted once. -/
def size (index : FileIndex) : Nat := (firstOccurrences index.files).length

def isEmpty (index : FileIndex) : Bool := index.files.isEmpty

-- =============================================================== locations

/-- Extensions tried after a path that names no file. -/
def extensions : List String := [
  "ts", "tsx", "d.ts", "js", "jsx", "mjs", "cjs", "py", "pyi", "rs", "go", "c", "h", "cc", "cpp",
  "hpp", "java", "kt", "scala", "cs", "swift", "rb", "php", "lua", "sh"]

/-- Files that stand for the directory they lie in. -/
def indexFiles : List String := [
  "index.ts", "index.tsx", "index.js", "index.jsx", "__init__.py", "mod.rs", "lib.rs"]

/-- One more segment after the segments walked so far, last first; `none`
when it leads out of the repository. -/
def step? (walked : List Text) (segment : Text) : Option (List Text) :=
  if segment = [] ∨ segment = ['.'] then some walked
  else if segment = ['.', '.'] then
    match walked with
    | [] => none
    | _ :: before => some before
  else some (segment :: walked)

/-- The location of a path from the root. -/
def location? (path : Text) : Option Text :=
  ((Text.splitOn '/' path).foldlM step? []).map fun walked => Text.join "/" walked.reverse

/-- The paths that a location stands for, in the order they are tried. -/
def candidates (location : Text) : List Text :=
  location :: (extensions.map fun e => location ++ '.' :: e.toList) ++
    indexFiles.map fun f => location ++ '/' :: f.toList

/-- The file that a path from the root leads to; the root itself leads
nowhere. -/
def probe? (index : FileIndex) (path : Text) : Option Text :=
  match location? path with
  | none | some [] => none
  | some location => (candidates location).find? (index.files.contains ·)

-- ============================================================== bare names

/-- What stands before the last slash of a path. -/
def parentDir (path : Text) : Text := ((Text.splitLast? '/' path).map Prod.fst).getD []

/-- A path below a directory. -/
def inDir (dir spec : Text) : Text := if dir = [] then spec else dir ++ '/' :: spec

/-- The number of leading segments that two paths share. -/
def sharedSegments (a b : Text) : Nat :=
  (((Text.splitOn '/' a).zip (Text.splitOn '/' b)).takeWhile fun p => p.1 == p.2).length

/-- Whether a path, with or without what follows its last dot, ends like a
specifier. -/
def endsLike (spec file : Text) : Bool :=
  Text.endsWith (((Text.splitLast? '.' file).map Prod.fst).getD file) spec
    || Text.endsWith file spec

/-- Whether one file is the better answer to a bare name. -/
def isBetter (spec dir a b : Text) : Bool :=
  let shared := fun f => sharedSegments (parentDir f) dir
  if endsLike spec a != endsLike spec b then endsLike spec a
  else if shared a != shared b then shared a > shared b
  else Text.le a b

/-- The best of several files. -/
def best? (spec dir : Text) : List Text → Option Text
  | [] => none
  | f :: rest =>
    match best? spec dir rest with
    | none => some f
    | some g => some (if isBetter spec dir f g then f else g)

/-- The name of a file before its first dot. -/
def stem (file : Text) : Text := Text.before '.' (Specifier.lastSegment file)

/-- The files that a bare name may mean, as often as they were given. -/
def named (index : FileIndex) (key : Text) : List Text :=
  match index.files.filter fun f => Specifier.lastSegment f == key with
  | [] => index.files.filter fun f => stem f == key
  | found => found

/-- The file that the last segment of a specifier means. -/
def lookup? (index : FileIndex) (spec importer : Text) : Option Text :=
  let spec := Text.trimEndOf (· == '/') spec
  let key := Specifier.lastSegment spec
  if key = [] ∨ key = ['.'] ∨ key = ['.', '.'] then none
  else best? spec (parentDir importer) ((index.named key).filter (· ≠ importer))

-- ============================================================== resolution

/-- The file that a specifier leads to from the importing file. -/
def resolve? (index : FileIndex) (importer : Text) : Specifier → Option Text
  | .relative spec => index.probe? (inDir (parentDir importer) spec)
  | .path spec =>
    (index.probe? spec).or <| (index.probe? (inDir (parentDir importer) spec)).or <|
      index.lookup? spec importer

/-- The file that an import of a file leads to. -/
def target? (index : FileIndex) (language : Language) (importer raw : Text) : Option Text :=
  (Specifier.ofImport language importer raw).findSome? (index.resolve? importer)

end FileIndex

end SourceDigest
