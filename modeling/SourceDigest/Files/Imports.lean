/-
The import graph of files as they lie in a file system.
-/
import SourceDigest.Files.Tree
import SourceDigest.Imports.Graph

namespace SourceDigest

/-- A file below a root as the graph is built from it. -/
def FileSystem.source (fs : FileSystem) (root path : Path) : ImportGraph.Source where
  file := Path.relativeTo root path
  extension := Text.lowerAscii ((Path.extension? path).getD [])
  content := (fs.read path).toOption.map Text.ofBytes

/-- The graph of some files below a root. -/
def FileSystem.importGraph (fs : FileSystem) (root : Path) (files extensions : List Text) :
    ImportGraph :=
  ImportGraph.build extensions (files.map (fs.source root))

end SourceDigest
