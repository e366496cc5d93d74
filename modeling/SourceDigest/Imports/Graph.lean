/-
The import graph of a repository.

An edge leads from a file to a file that it imports; no file has an edge
to itself and no edge is there twice. The importers of a file are counted
by its name: whoever imports any file of that name counts, which puts
common names such as `index.ts` rather too high. The importers of each
name are kept along with the edges, so that counting them does not walk
all edges.
-/
import SourceDigest.Table
import SourceDigest.Imports.FileIndex

namespace SourceDigest

/-- Files and which files they import. -/
structure ImportGraph where
  /-- The imported files of each file, in the order they were added. -/
  edges : Table (List Text) := []
  /-- The importing files, under the name of what they import; they are the
  keys of a table of their own, so each is there once. -/
  importersByName : Table (Table Unit) := []
deriving DecidableEq

namespace ImportGraph

def empty : ImportGraph := {}

/-- Adds a file; one that is there stays as it is. -/
def addNode (g : ImportGraph) (file : Text) : ImportGraph :=
  { g with edges := g.edges.alter file (·.getD []) }

/-- The files that a file imports. -/
def edgesFrom (g : ImportGraph) (file : Text) : List Text := (g.edges.get? file).getD []

/-- Puts an edge behind those of a file, and the file among the importers
of its target's name. -/
def link (g : ImportGraph) (source target : Text) : ImportGraph where
  edges := g.edges.alter source fun es => es.getD [] ++ [target]
  importersByName :=
    g.importersByName.alter (Specifier.lastSegment target) fun importers =>
      (importers.getD []).put source ()

/-- Adds an edge and the files it joins. An edge from a file to itself
adds nothing at all. -/
def addEdge (g : ImportGraph) (source target : Text) : ImportGraph :=
  if source = target then g
  else
    let g := (g.addNode target).addNode source
    if target ∈ g.edgesFrom source then g else g.link source target

def contains (g : ImportGraph) (file : Text) : Bool := (g.edges.get? file).isSome

def nodeCount (g : ImportGraph) : Nat := g.edges.length

def edgeCount (g : ImportGraph) : Nat := g.edges.foldr (fun e n => e.2.length + n) 0

/-- How many files a file imports. -/
def outDegree (g : ImportGraph) (file : Text) : Nat := (g.edgesFrom file).length

/-- How many other files import a file of this name. -/
def inDegree (g : ImportGraph) (file : Text) : Nat :=
  match g.importersByName.get? (Specifier.lastSegment file) with
  | some importers => importers.length - if (importers.get? file).isSome then 1 else 0
  | none => 0

/-- How well a file is connected: the binary logarithm of its degrees and
one, a fifth of it, at most one. -/
def connectivity (g : ImportGraph) (file : Text) : Float :=
  let raised := ((g.inDegree file + g.outDegree file).toFloat + 1.0).log2 / 5.0
  if raised > 1.0 then 1.0 else raised

-- ================================================================= building

/-- A file as the graph is built from it. -/
structure Source where
  /-- The path below the root. -/
  file : Text
  /-- The extension, in lower case. -/
  extension : Text
  /-- The content, unless the file cannot be read. -/
  content : Option Text

/-- Whether an extension is one of those scanned for imports. -/
def isScanned (extensions : List Text) (extension : Text) : Bool :=
  extensions.any (Text.sameAscii · extension)

/-- The files that a file imports, repetitions included. -/
def targets (index : FileIndex) (extensions : List Text) (s : Source) : List Text :=
  match s.content with
  | some content =>
    if isScanned extensions s.extension then
      let language := Language.ofExtension s.extension
      (Imports.scan language content).filterMap (index.target? language s.file)
    else []
  | none => []

/-- Adds a file with its imports. -/
def addSource (index : FileIndex) (extensions : List Text) (g : ImportGraph) (s : Source) :
    ImportGraph :=
  (targets index extensions s).foldl (fun g t => g.addEdge s.file t) (g.addNode s.file)

/-- The graph of some files. -/
def build (extensions : List Text) (sources : List Source) : ImportGraph :=
  sources.foldl (addSource (FileIndex.ofList (sources.map (·.file))) extensions) empty

end ImportGraph

end SourceDigest
