/-
Settings from files: the configuration file, and the ignore files in the
root of a repository.
-/
import SourceDigest.Data.Toml.Document
import SourceDigest.Error
import SourceDigest.Files.Tree
import SourceDigest.Settings.Datum

namespace SourceDigest

namespace Selection

/-- The ignore file of version control. -/
def gitignoreFile : Path := ".gitignore"

/-- Adds the globs of the ignore file at a path and tells how many they are;
a file that cannot be read adds none. -/
def loadFile (s : Selection) (fs : FileSystem) (path : Path) : Selection × Nat :=
  match fs.readText? path with
  | some t => s.loadIgnoreFile t
  | none => (s, 0)

/-- Adds the globs of the ignore file of version control in a root. -/
def loadGitignore (s : Selection) (fs : FileSystem) (root : Path) : Selection × Nat :=
  s.loadFile fs (Path.join root gitignoreFile)

end Selection

namespace Settings

/-- The settings that a configuration text says. -/
def ofToml? (t : Text) : Option Settings := (Toml.read? t).bind Settings.ofDatum?

/-- The settings of the configuration file at a path. -/
def load (fs : FileSystem) (path : Path) : Except ConfigError Settings :=
  match fs.readText? path with
  | none => .error .unreadable
  | some t =>
    match ofToml? t with
    | none => .error .malformed
    | some s => .ok s

/-- The configuration file that is looked for in the working directory. -/
def configFile : Path := "reposift.toml"

/-- The settings of the configuration file in the working directory, if
there is one that is of use. -/
def discover? (fs : FileSystem) : Option Settings := (load fs configFile).toOption

/-- The ignore file of this program. -/
def ignoreFile : Path := ".reposiftignore"

/-- The selection below a root: the globs that are set, then those of the
ignore file of version control, if so set, then every line of the ignore
file of this program. -/
def selection (s : Settings) (fs : FileSystem) (root : Path) : Selection :=
  let base := Selection.ofGlobs s.ignorePatterns s.includePatterns
  let base := if s.useGitignore then (base.loadGitignore fs root).1 else base
  match fs.readText? (Path.join root ignoreFile) with
  | some t => base.addIgnores (Selection.ignoreLines t)
  | none => base

end Settings

end SourceDigest
