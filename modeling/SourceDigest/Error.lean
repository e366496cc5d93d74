/-
What can go wrong as a whole, and how it is told.

Trouble with a single file never shows up here: it is noted on the record
of that file.
-/
import SourceDigest.Path

namespace SourceDigest

/-- Why a repository cannot be scanned. -/
inductive ScanError where
  | rootNotFound (root : Path)
  | notADirectory (root : Path)
  /-- The root cannot be examined, for the reason given. -/
  | unreadable (root : Path) (reason : Text)
deriving DecidableEq, Repr

/-- Why a way of finding entities gives up. -/
inductive EntityError where
  | backendUnavailable (detail : Text)
  | modelLoad (detail : Text)
  | inference (detail : Text)
  | unsupportedLanguage (path : Path)
  | unparsed (what : Text)
deriving DecidableEq, Repr

/-- Why a configuration file is of no use. -/
inductive ConfigError where
  /-- It cannot be read. -/
  | unreadable
  /-- It does not say what a configuration may say. -/
  | malformed
deriving DecidableEq, Repr

def ScanError.message : ScanError → Text
  | rootNotFound root => "repository root does not exist: " ++ root
  | notADirectory root => "repository root is not a directory: " ++ root
  | unreadable root reason => "I/O error on " ++ root ++ ": " ++ reason

def EntityError.message : EntityError → Text
  | backendUnavailable detail => "backend unavailable: " ++ detail
  | modelLoad detail => "failed to load model: " ++ detail
  | inference detail => "inference failed: " ++ detail
  | unsupportedLanguage path => "unsupported language for " ++ path
  | unparsed what => "failed to parse " ++ what

end SourceDigest
