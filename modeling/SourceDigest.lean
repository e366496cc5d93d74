import SourceDigest.Main
import SourceDigest.Proofs.Glob.Endings
import SourceDigest.Proofs.Imports.Building
import SourceDigest.Proofs.Ingest.Processing
import SourceDigest.Proofs.Entities.Decoding
import SourceDigest.Proofs.Entities.Memory
import SourceDigest.Proofs.Ingest.Notices
import SourceDigest.Proofs.Path.Rejoining
import SourceDigest.Proofs.Scoring.Reports
import SourceDigest.Proofs.Text.Lines
import SourceDigest.Proofs.Lines.Stats
import SourceDigest.Proofs.Summary.Pieces
import SourceDigest.Proofs.Summary.Document
import SourceDigest.Proofs.Ingest.Summaries
import SourceDigest.Proofs.Ingest.Registry
import SourceDigest.Proofs.Output.Document
import SourceDigest.Proofs.Scoring.Ranking
import SourceDigest.Proofs.Imports.Location
import SourceDigest.Proofs.Imports.ModulePaths
import SourceDigest.Proofs.Imports.Supers
import SourceDigest.Proofs.Imports.Walks
import SourceDigest.Proofs.Imports.NameLists
import SourceDigest.Proofs.Pattern.Runs
import SourceDigest.Proofs.Imports.FromImports
import SourceDigest.Proofs.Imports.Headings
import SourceDigest.Proofs.Imports.TightHeadings
import SourceDigest.Proofs.Imports.UsePaths
import SourceDigest.Proofs.Imports.UseTrees
import SourceDigest.Proofs.Imports.ScriptLines
import SourceDigest.Proofs.Imports.ScriptStatements
import SourceDigest.Proofs.Imports.DottedPaths
import SourceDigest.Proofs.Entities.Labeling
import SourceDigest.Proofs.Text.Parts
import SourceDigest.Proofs.Lines.Classes
import SourceDigest.Proofs.Summary.Comments
import SourceDigest.Proofs.Lines.Sums
import SourceDigest.Proofs.Lines.Strings
import SourceDigest.Proofs.Entities.Declarations
import SourceDigest.Proofs.Imports.ImportBlocks
import SourceDigest.Proofs.Lines.Declared
import SourceDigest.Proofs.Summary.Headers
import SourceDigest.Proofs.Summary.HeaderRanges
import SourceDigest.Proofs.Summary.HeaderReading
import SourceDigest.Proofs.Summary.HeaderLayouts
import SourceDigest.Proofs.Summary.Snippets
import SourceDigest.Proofs.Summary.Caps
import SourceDigest.Proofs.Glob.Settling
import SourceDigest.Proofs.Files.Pruning
import SourceDigest.Proofs.Scoring.Names
import SourceDigest.Proofs.Selection
import SourceDigest.Proofs.Imports.RootDirectory
import SourceDigest.Proofs.Entities.Words
import SourceDigest.Proofs.Entities.Listing
import SourceDigest.Proofs.Syntax.Traversal
