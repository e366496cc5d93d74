/-
What can be set: ingestion, summaries, entities and scoring, each with
its defaults. Sizes are in bytes.
-/
import SourceDigest.Data.Double
import SourceDigest.Path
import SourceDigest.Selection

namespace SourceDigest

/-- Files above this size are never read, whatever is set. -/
def hardSizeLimit : Nat := 100 * 1024 * 1024

/-- How entities are found. -/
inductive EntityMethod where
  | pattern
  | structural
  | learned
  | hybrid
deriving DecidableEq, Repr

/-- How code density is judged. -/
inductive DensityMethod where
  | line
  | structural
deriving DecidableEq, Repr

/-- How files are collected and read. -/
structure IngestSettings where
  /-- Worker threads; zero leaves it to the machine. -/
  threads : Nat := 0
  /-- Collector threads; zero means as many as worker threads. -/
  parallelCollectors : Nat := 0
  /-- How many found files a collector holds back before it hands them on. -/
  collectorBatchSize : Nat := 64
  /-- Files from this size on are read as a whole at once. -/
  mapThreshold : Nat := 1024 * 1024
  /-- Files above this size are skipped. -/
  maxFileSize : Nat := hardSizeLimit
  /-- Whether symbolic links to files count as files. -/
  followSymlinks : Bool := true

/-- The size above which files are skipped. -/
def IngestSettings.sizeLimit (s : IngestSettings) : Nat := min s.maxFileSize hardSizeLimit

/-- The number of worker threads on a machine with so many cores. -/
def IngestSettings.threadsOn (s : IngestSettings) (cores : Nat) : Nat :=
  if s.threads > 0 then s.threads else cores

/-- Which entities are listed, and how they are found. -/
structure EntitySettings where
  enabled : Bool := false
  method : EntityMethod := .pattern
  includeClasses : Bool := true
  includeFunctions : Bool := true
  includeVariables : Bool := false
  includeEnums : Bool := true
  includeImports : Bool := false
  /-- The most entities listed; zero lists all. -/
  maxEntities : Nat := 50
  groupByType : Bool := true
  /-- Whether learned results are kept for each path. -/
  cache : Bool := true
  /-- Milliseconds that one learned extraction may take. -/
  learnedTimeBudget : Nat := 5000
  /-- Only larger files go to the learned extractor. -/
  learnedSizeThreshold : Nat := 50 * 1024
  hybridUseLearned : Bool := true
  hybridUseStructural : Bool := true
  /-- The directory of the learned model. -/
  modelPath : Option Path := none

/-- How large files are reduced. -/
structure SummarySettings where
  enabled : Bool := true
  /-- Larger files are summarized. -/
  sizeThreshold : Nat := 10 * 1024
  /-- Whether read-me files stay whole. -/
  includeReadme : Bool := true
  firstLines : Bool := true
  firstLinesCount : Nat := 20
  signatures : Bool := true
  comments : Bool := true
  maxComments : Nat := 20
  snippets : Bool := true
  snippetCount : Nat := 3
  snippetLines : Nat := 5
  entities : EntitySettings := {}

/-- What each component adds to a score at most. -/
structure ScoringWeights where
  structural : Double := 0.25
  fileType : Double := 0.25
  recency : Double := 0.15
  size : Double := 0.10
  codeDensity : Double := 0.15
  dependency : Double := 0.10

/-- String literals as texts. -/
def textList (ss : List String) : List Text := ss.map String.toList

/-- How files are scored. -/
structure ScoringSettings where
  weights : ScoringWeights := {}
  /-- Files from this score on are included. -/
  inclusionThreshold : Double := 0.3
  /-- Files older than this count as not recent at all. -/
  recencyDays : Double := 30.0
  /-- Files from this size on count as large. -/
  largeFileBytes : Nat := 100 * 1024
  sourceTypeWeight : Double := 1.0
  configTypeWeight : Double := 0.8
  docsTypeWeight : Double := 0.6
  testTypeWeight : Double := 0.3
  importantFiles : List Text := textList [
    "readme*", "license*", "contributing*", "changelog*", "package.json", "cargo.toml", "go.mod",
    "pyproject.toml", "setup.py", "requirements.txt", "pom.xml", "build.gradle", "makefile",
    "cmakelists.txt", "dockerfile", "docker-compose.yml", "tsconfig.json"]
  importantDirs : List Text := textList [
    "src/", "lib/", "app/", "core/", "include/", "pkg/", "cmd/", "internal/"]
  entryPoints : List Text := textList [
    "main.*", "index.*", "app.*", "server.*", "start.*", "init.*", "bootstrap.*"]
  sourceExtensions : List Text := textList [
    "rs", "py", "js", "jsx", "ts", "tsx", "go", "c", "h", "cpp", "cc", "cxx", "hpp", "hh", "java",
    "kt", "scala", "cs", "rb", "php", "swift", "m", "mm", "sh", "lua"]
  configExtensions : List Text := textList [
    "json", "yaml", "yml", "toml", "ini", "cfg", "conf", "xml", "properties", "env", "gradle",
    "cmake"]
  docsExtensions : List Text := textList ["md", "markdown", "rst", "txt", "adoc", "org"]
  testPatterns : List Text := textList [
    "test_*", "*_test.*", "*.test.*", "*.spec.*", "**/test/**", "**/tests/**", "**/__tests__/**"]
  densityMethod : DensityMethod := .line

/-- Everything that can be set. -/
structure Settings where
  ignorePatterns : List Text := textList Selection.defaultIgnore
  includePatterns : List Text := []
  /-- Whether the ignore file of version control is read as well. -/
  useGitignore : Bool := true
  /-- Whether files are selected by their scores. -/
  scoringEnabled : Bool := false
  ingest : IngestSettings := {}
  summary : SummarySettings := {}
  scoring : ScoringSettings := {}

end SourceDigest
