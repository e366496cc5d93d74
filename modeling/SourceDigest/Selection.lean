/-
Selection: which paths below a repository root are taken.

A selection is a list of globs to ignore and a list of globs to include.
A file is taken when no ignore glob matches it and, if there are include
globs at all, one of them does; ignoring always wins. A directory is
entered unless an ignore glob matches it: include globs speak of files.

Ignore files hold one glob a line. Blank lines and lines that start with
`#` say nothing. A line that starts with `!` would take something back,
which selections do not offer, and is passed over.
-/
import SourceDigest.Glob

namespace SourceDigest

/-- The globs that decide which paths are taken, in the order added. -/
structure Selection where
  ignore : List Glob := []
  includes : List Glob := []

namespace Selection

/-- The selection that takes everything. -/
def empty : Selection := {}

/-- A glob with something in it. -/
def isGiven (glob : Text) : Bool := !(Text.trim glob).isEmpty

/-- Adds a glob to ignore; a blank one adds nothing. -/
def addIgnore (s : Selection) (glob : Text) : Selection :=
  if isGiven glob then { s with ignore := s.ignore ++ [Glob.compile glob] } else s

/-- Adds a glob to include; a blank one adds nothing. -/
def addInclude (s : Selection) (glob : Text) : Selection :=
  if isGiven glob then { s with includes := s.includes ++ [Glob.compile glob] } else s

def addIgnores (s : Selection) (globs : List Text) : Selection := globs.foldl addIgnore s

def addIncludes (s : Selection) (globs : List Text) : Selection := globs.foldl addInclude s

/-- The selection made of two lists of globs. -/
def ofGlobs (ignore includes : List Text) : Selection :=
  (empty.addIgnores ignore).addIncludes includes

-- ============================================================= ignore files

/-- The lines of an ignore file that say something, trimmed. -/
def ignoreLines (content : Text) : List Text :=
  ((Text.lines content).map Text.trim).filter fun line =>
    !line.isEmpty && line.head? != some '#'

/-- The globs of an ignore file. -/
def ignoreGlobs (content : Text) : List Text :=
  (ignoreLines content).filter fun line => line.head? != some '!'

/-- Adds the globs of an ignore file and tells how many they are. -/
def loadIgnoreFile (s : Selection) (content : Text) : Selection × Nat :=
  (s.addIgnores (ignoreGlobs content), (ignoreGlobs content).length)

-- ================================================================ decisions

/-- Whether an ignore glob matches the path. -/
def isIgnored (s : Selection) (path : Text) : Bool := s.ignore.any (·.isMatch path)

/-- Whether the include globs admit the path. -/
def isIncluded (s : Selection) (path : Text) : Bool :=
  s.includes.isEmpty || s.includes.any (·.isMatch path)

/-- Whether a file at the path is taken. -/
def takes (s : Selection) (path : Text) : Bool := !s.isIgnored path && s.isIncluded path

/-- Whether a directory at the path is entered. -/
def enters (s : Selection) (path : Text) : Bool := !s.isIgnored path

-- ================================================================= defaults

/-- Globs ignored unless configured otherwise: version control, editors,
build output and dependencies, lock files, logs, media and archives. -/
def defaultIgnore : List String := [
  ".git", ".hg", ".svn", ".bzr",
  ".idea", ".vscode", ".vs", "*.swp", "*.swo",
  "node_modules", "target", "dist", "build", "out", "vendor", "venv", ".venv", ".tox",
  "__pycache__", "*.pyc", "*.class", "*.o", "*.obj",
  "package-lock.json", "yarn.lock", "pnpm-lock.yaml", "Cargo.lock", "Gemfile.lock",
  "composer.lock",
  ".DS_Store", "Thumbs.db",
  "*.log",
  "*.exe", "*.dll", "*.so", "*.dylib", "*.bin", "*.jpg", "*.jpeg", "*.png", "*.gif", "*.ico",
  "*.webp", "*.mp3", "*.mp4", "*.pdf", "*.zip", "*.tar", "*.tar.gz", "*.7z", "*.db",
  "*.sqlite"]

/-- The selection of the default globs. -/
def default : Selection := empty.addIgnores (defaultIgnore.map String.toList)

end Selection

end SourceDigest
