/-
Summaries: what is shown of a large file in place of its text.

A summary is a header and the sections asked for that have something to
show, in a fixed order, with a blank line between them. Files up to a
size, and read-me files if so set, are shown whole.
-/
import SourceDigest.Entities.Select
import SourceDigest.Record
import SourceDigest.Summary.Signatures
import SourceDigest.Summary.Comments
import SourceDigest.Summary.Snippets

namespace SourceDigest

/-- Whether a path names a read-me file, in any case of ASCII letters. -/
def isReadme (path : Path) : Bool :=
  let name := Text.lowerAscii ((Path.fileName? path).getD [])
  name == ("readme" : Text) || Text.startsWith name "readme."

namespace Summary

/-- The first lines of a text. -/
def leadingLines (content : Text) (count : Nat) : Text :=
  Text.join "\n" ((Text.lines content).take count)

/-- A heading over a body, unless the body is empty. -/
def titled (title body : Text) : Option Text :=
  if body = [] then none else some (title ++ ":\n" ++ body)

/-- A heading over some pieces, unless there are none. -/
def titledList (title sep : Text) (pieces : List Text) : Option Text :=
  if pieces = [] then none else some (title ++ ":\n" ++ Text.join sep pieces)

end Summary

namespace SummarySettings

open Summary

/-- Whether a record is shown as a summary. -/
def applies (s : SummarySettings) (r : FileRecord) : Bool :=
  s.enabled && r.byteSize > s.sizeThreshold && !(s.includeReadme && isReadme r.path)

/-- The listed entities of a record. -/
def entitiesOf (s : SummarySettings) (find : EntityFinder) (r : FileRecord) : List Entity :=
  s.entities.select (find r.path r.text)

/-- The entities that a summary shows. -/
def entitiesShown (s : SummarySettings) (find : EntityFinder) (r : FileRecord) : List Entity :=
  if s.entities.enabled then s.entitiesOf find r else []

/-- The snippets that a summary shows. -/
def snippetsOf (s : SummarySettings) (content : Text) : Option (List Text) :=
  if s.snippets then Snippet.extract content s.snippetCount s.snippetLines else none

/-- The line that names a file. -/
def header (r : FileRecord) : Text :=
  "File: " ++ r.path ++ " (" ++ Text.ofNat r.byteSize ++ " bytes, " ++ Text.ofNat r.lineCount ++
    " lines)"

/-- The sections of a summary, each present when asked for and not
empty. -/
def sections (s : SummarySettings) (r : FileRecord) (es : List Entity) : List (Option Text) :=
  let content := r.text
  let language := Language.ofPath r.path
  [ if s.entities.enabled then titled "Entities" (Entity.format es s.entities.groupByType)
    else none,
    if s.firstLines && s.firstLinesCount > 0 then
      titled ("First " ++ Text.ofNat s.firstLinesCount ++ " lines")
        (leadingLines content s.firstLinesCount)
    else none,
    if s.signatures then titledList "Signatures" "\n" (Signature.all language content) else none,
    if s.comments then
      titledList "Comments" "\n\n" (Comment.extract language content s.maxComments)
    else none,
    (s.snippetsOf content).map fun found => "Snippets:\n" ++ Text.join "\n" found ]

/-- The summary that lists given entities. -/
def compose (s : SummarySettings) (r : FileRecord) (es : List Entity) : Text :=
  Text.join "\n\n" (header r :: (s.sections r es).filterMap id)

/-- The summary of a record. -/
def summarize (s : SummarySettings) (find : EntityFinder) (r : FileRecord) : Text :=
  s.compose r (s.entitiesShown find r)

/-- What is shown of a record: its summary where that applies, otherwise
its text. -/
def render (s : SummarySettings) (find : EntityFinder) (r : FileRecord) : Text :=
  if s.applies r then s.summarize find r else r.text

/-- The record with its summary for content where that applies. -/
def summarized (s : SummarySettings) (find : EntityFinder) (r : FileRecord) : FileRecord :=
  if s.applies r then
    let es := s.entitiesShown find r
    { r with
      content := some (Text.toBytes (s.compose r es))
      summarized := true
      firstLines := if s.firstLines then some (leadingLines r.text s.firstLinesCount) else none
      snippets := s.snippetsOf r.text
      entities := es
      formattedEntities :=
        if es = [] then none else some (Entity.format es s.entities.groupByType) }
  else r

end SummarySettings

end SourceDigest
