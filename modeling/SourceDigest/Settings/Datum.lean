/-
Settings as data: how they are read from a table and written as one.

Every field may be missing at every level and then has its default. Names
that mean nothing here are passed over; a value of the wrong kind makes
all of it invalid.
-/
import SourceDigest.Data.Basic
import SourceDigest.Settings.Basic

namespace SourceDigest

open Datum

namespace EntityMethod

/-- The ways to find entities by the names they are set by. -/
def names : List (String × EntityMethod) := [
  ("pattern", pattern), ("structural", structural), ("learned", learned), ("hybrid", hybrid)]

end EntityMethod

namespace DensityMethod

/-- The ways to judge density by the names they are set by. -/
def names : List (String × DensityMethod) := [("line", line), ("structural", structural)]

end DensityMethod

/-- The name under which a choice stands in a list of names. -/
def choiceName {α : Type} [DecidableEq α] (choices : List (String × α)) (a : α) : Text :=
  ((choices.find? fun c => c.2 = a).map fun c => c.1.toList).getD []

-- ==================================================================== reading

def IngestSettings.ofDatum? (d : Datum) : Option IngestSettings := do
  let base : IngestSettings := {}
  return {
    threads := ← d.field 0 "threads" toSize? base.threads
    parallelCollectors := ← d.field 1 "parallel_collectors" toSize? base.parallelCollectors
    collectorBatchSize := ← d.field 2 "collector_batch_size" toSize? base.collectorBatchSize
    mapThreshold := ← d.field 3 "mmap_threshold" toSize? base.mapThreshold
    maxFileSize := ← d.field 4 "max_file_size" toSize? base.maxFileSize
    followSymlinks := ← d.field 5 "follow_symlinks" toFlag? base.followSymlinks }

def EntitySettings.ofDatum? (d : Datum) : Option EntitySettings := do
  let base : EntitySettings := {}
  return {
    enabled := ← d.field 0 "enabled" toFlag? base.enabled
    method := ← d.field 1 "method" (toChoice? EntityMethod.names) base.method
    includeClasses := ← d.field 2 "include_classes" toFlag? base.includeClasses
    includeFunctions := ← d.field 3 "include_functions" toFlag? base.includeFunctions
    includeVariables := ← d.field 4 "include_variables" toFlag? base.includeVariables
    includeEnums := ← d.field 5 "include_enums" toFlag? base.includeEnums
    includeImports := ← d.field 6 "include_imports" toFlag? base.includeImports
    maxEntities := ← d.field 7 "max_entities" toSize? base.maxEntities
    groupByType := ← d.field 8 "group_by_type" toFlag? base.groupByType
    cache := ← d.field 9 "cache" toFlag? base.cache
    learnedTimeBudget := ← d.field 10 "learned_time_budget_ms" toSize? base.learnedTimeBudget
    learnedSizeThreshold :=
      ← d.field 11 "learned_size_threshold" toSize? base.learnedSizeThreshold
    hybridUseLearned := ← d.field 12 "hybrid_use_learned" toFlag? base.hybridUseLearned
    hybridUseStructural := ← d.field 13 "hybrid_use_structural" toFlag? base.hybridUseStructural
    modelPath := ← d.field 14 "model_path" (toOptional? toText?) base.modelPath }

def SummarySettings.ofDatum? (d : Datum) : Option SummarySettings := do
  let base : SummarySettings := {}
  return {
    enabled := ← d.field 0 "enabled" toFlag? base.enabled
    sizeThreshold := ← d.field 1 "size_threshold" toSize? base.sizeThreshold
    includeReadme := ← d.field 2 "include_readme" toFlag? base.includeReadme
    firstLines := ← d.field 3 "first_lines" toFlag? base.firstLines
    firstLinesCount := ← d.field 4 "first_lines_count" toSize? base.firstLinesCount
    signatures := ← d.field 5 "signatures" toFlag? base.signatures
    comments := ← d.field 6 "comments" toFlag? base.comments
    maxComments := ← d.field 7 "max_comments" toSize? base.maxComments
    snippets := ← d.field 8 "snippets" toFlag? base.snippets
    snippetCount := ← d.field 9 "snippet_count" toSize? base.snippetCount
    snippetLines := ← d.field 10 "snippet_lines" toSize? base.snippetLines
    entities := ← d.field 11 "ner" EntitySettings.ofDatum? base.entities }

def ScoringWeights.ofDatum? (d : Datum) : Option ScoringWeights := do
  let base : ScoringWeights := {}
  return {
    structural := ← d.field 0 "structure" toNumber? base.structural
    fileType := ← d.field 1 "file_type" toNumber? base.fileType
    recency := ← d.field 2 "recency" toNumber? base.recency
    size := ← d.field 3 "size" toNumber? base.size
    codeDensity := ← d.field 4 "code_density" toNumber? base.codeDensity
    dependency := ← d.field 5 "dependency" toNumber? base.dependency }

def ScoringSettings.ofDatum? (d : Datum) : Option ScoringSettings := do
  let base : ScoringSettings := {}
  return {
    weights := ← d.field 0 "weights" ScoringWeights.ofDatum? base.weights
    inclusionThreshold := ← d.field 1 "inclusion_threshold" toNumber? base.inclusionThreshold
    recencyDays := ← d.field 2 "recency_days" toNumber? base.recencyDays
    largeFileBytes := ← d.field 3 "large_file_bytes" toSize? base.largeFileBytes
    sourceTypeWeight := ← d.field 4 "source_type_weight" toNumber? base.sourceTypeWeight
    configTypeWeight := ← d.field 5 "config_type_weight" toNumber? base.configTypeWeight
    docsTypeWeight := ← d.field 6 "docs_type_weight" toNumber? base.docsTypeWeight
    testTypeWeight := ← d.field 7 "test_type_weight" toNumber? base.testTypeWeight
    importantFiles := ← d.field 8 "important_files" toTexts? base.importantFiles
    importantDirs := ← d.field 9 "important_dirs" toTexts? base.importantDirs
    entryPoints := ← d.field 10 "entry_points" toTexts? base.entryPoints
    sourceExtensions := ← d.field 11 "source_extensions" toTexts? base.sourceExtensions
    configExtensions := ← d.field 12 "config_extensions" toTexts? base.configExtensions
    docsExtensions := ← d.field 13 "docs_extensions" toTexts? base.docsExtensions
    testPatterns := ← d.field 14 "test_patterns" toTexts? base.testPatterns
    densityMethod :=
      ← d.field 15 "density_analyzer" (toChoice? DensityMethod.names) base.densityMethod }

def Settings.ofDatum? (d : Datum) : Option Settings := do
  let base : Settings := {}
  return {
    ignorePatterns := ← d.field 0 "ignore_patterns" toTexts? base.ignorePatterns
    includePatterns := ← d.field 1 "include_patterns" toTexts? base.includePatterns
    useGitignore := ← d.field 2 "use_gitignore" toFlag? base.useGitignore
    scoringEnabled := ← d.field 3 "scoring_enabled" toFlag? base.scoringEnabled
    ingest := ← d.field 4 "processor" IngestSettings.ofDatum? base.ingest
    summary := ← d.field 5 "summary" SummarySettings.ofDatum? base.summary
    scoring := ← d.field 6 "scoring" ScoringSettings.ofDatum? base.scoring }

-- ==================================================================== writing

def IngestSettings.toDatum (s : IngestSettings) : Datum := object [
  ("threads", nat s.threads),
  ("parallel_collectors", nat s.parallelCollectors),
  ("collector_batch_size", nat s.collectorBatchSize),
  ("mmap_threshold", nat s.mapThreshold),
  ("max_file_size", nat s.maxFileSize),
  ("follow_symlinks", flag s.followSymlinks)]

def EntitySettings.toDatum (s : EntitySettings) : Datum := object [
  ("enabled", flag s.enabled),
  ("method", text (choiceName EntityMethod.names s.method)),
  ("include_classes", flag s.includeClasses),
  ("include_functions", flag s.includeFunctions),
  ("include_variables", flag s.includeVariables),
  ("include_enums", flag s.includeEnums),
  ("include_imports", flag s.includeImports),
  ("max_entities", nat s.maxEntities),
  ("group_by_type", flag s.groupByType),
  ("cache", flag s.cache),
  ("learned_time_budget_ms", nat s.learnedTimeBudget),
  ("learned_size_threshold", nat s.learnedSizeThreshold),
  ("hybrid_use_learned", flag s.hybridUseLearned),
  ("hybrid_use_structural", flag s.hybridUseStructural),
  ("model_path", s.modelPath.elim null text)]

def SummarySettings.toDatum (s : SummarySettings) : Datum := object [
  ("enabled", flag s.enabled),
  ("size_threshold", nat s.sizeThreshold),
  ("include_readme", flag s.includeReadme),
  ("first_lines", flag s.firstLines),
  ("first_lines_count", nat s.firstLinesCount),
  ("signatures", flag s.signatures),
  ("comments", flag s.comments),
  ("max_comments", nat s.maxComments),
  ("snippets", flag s.snippets),
  ("snippet_count", nat s.snippetCount),
  ("snippet_lines", nat s.snippetLines),
  ("ner", s.entities.toDatum)]

def ScoringWeights.toDatum (w : ScoringWeights) : Datum := object [
  ("structure", number w.structural),
  ("file_type", number w.fileType),
  ("recency", number w.recency),
  ("size", number w.size),
  ("code_density", number w.codeDensity),
  ("dependency", number w.dependency)]

def ScoringSettings.toDatum (s : ScoringSettings) : Datum := object [
  ("weights", s.weights.toDatum),
  ("inclusion_threshold", number s.inclusionThreshold),
  ("recency_days", number s.recencyDays),
  ("large_file_bytes", nat s.largeFileBytes),
  ("source_type_weight", number s.sourceTypeWeight),
  ("config_type_weight", number s.configTypeWeight),
  ("docs_type_weight", number s.docsTypeWeight),
  ("test_type_weight", number s.testTypeWeight),
  ("important_files", texts s.importantFiles),
  ("important_dirs", texts s.importantDirs),
  ("entry_points", texts s.entryPoints),
  ("source_extensions", texts s.sourceExtensions),
  ("config_extensions", texts s.configExtensions),
  ("docs_extensions", texts s.docsExtensions),
  ("test_patterns", texts s.testPatterns),
  ("density_analyzer", text (choiceName DensityMethod.names s.densityMethod))]

def Settings.toDatum (s : Settings) : Datum := object [
  ("ignore_patterns", texts s.ignorePatterns),
  ("include_patterns", texts s.includePatterns),
  ("use_gitignore", flag s.useGitignore),
  ("scoring_enabled", flag s.scoringEnabled),
  ("processor", s.ingest.toDatum),
  ("summary", s.summary.toDatum),
  ("scoring", s.scoring.toDatum)]

end SourceDigest
