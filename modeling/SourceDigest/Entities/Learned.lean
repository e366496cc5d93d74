/-
Entities found by a sequence labeler, a line at a time.

All or nothing: when the labeler fails on a line, gives more or fewer
labels than words, or the whole takes longer than it may, the patterns
answer for the whole text instead. The time is looked at when the work is
done; nothing is interrupted.

What was found for a path is kept, if so set, and given again for the
same path whatever the text is then.
-/
import SourceDigest.Declaration
import SourceDigest.Entities.Labels
import SourceDigest.Entities.Select
import SourceDigest.Error
import SourceDigest.Table

namespace SourceDigest

/-- Gives one label to each of some words, or fails. -/
abbrev Labeler := List Text → Except EntityError (List Text)

/-- The entities that patterns find in a file. -/
def Entity.inFile : EntityFinder := fun path content =>
  Entity.byPatterns (Language.ofPath path) content

namespace Labels

/-- The words of a line as texts. -/
def wordTexts (line : Text) : List Text := (words line).map (·.cover line)

/-- The labels of a line's words, one for each. -/
def labelLine (labeler : Labeler) (line : Text) : Except EntityError (List Text) :=
  match labeler (wordTexts line) with
  | .error e => .error e
  | .ok labels =>
    if labels.length = (words line).length then .ok labels
    else .error (.inference (Text.ofNat labels.length ++ " labels for " ++
      Text.ofNat (words line).length ++ " tokens"))

/-- The entities of some lines, repetitions included, and how often the
labeler was asked: for every line with a word, up to the first that
fails. -/
def labelLines (labeler : Labeler) : List Text → Except EntityError (List Entity) × Nat
  | [] => (.ok [], 0)
  | line :: rest =>
    if words line = [] then labelLines labeler rest
    else
      match labelLine labeler line with
      | .error e => (.error e, 1)
      | .ok labels =>
        let (more, asked) := labelLines labeler rest
        (more.map fun es => decode line (words line) labels ++ es, asked + 1)

end Labels

/-- Finds entities by a labeler. -/
structure LearnedFinder where
  labeler : Labeler
  /-- Milliseconds that one text may take. -/
  timeBudget : Nat
  cacheEnabled : Bool
  /-- What was found, by path. -/
  cache : Table (List Entity) := []
  /-- How often the labeler has been asked. -/
  asked : Nat := 0

namespace LearnedFinder

/-- The finder of a labeler as set. -/
def ofLabeler (labeler : Labeler) (s : EntitySettings) : LearnedFinder :=
  { labeler, timeBudget := s.learnedTimeBudget, cacheEnabled := s.cache }

/-- Forgets what was found. -/
def clear (f : LearnedFinder) : LearnedFinder := { f with cache := [] }

/-- The nanoseconds in a millisecond. -/
def nanosPerMilli : Nat := 1000000

/-- The entities of a text and how often the labeler was asked for them,
when labeling took `elapsed` nanoseconds. -/
def findFresh (f : LearnedFinder) (elapsed : Nat) (path : Path) (content : Text) :
    List Entity × Nat :=
  let (found, asked) := Labels.labelLines f.labeler (Text.lines content)
  match found with
  | .ok es =>
    if elapsed > f.timeBudget * nanosPerMilli then (Entity.inFile path content, asked)
    else (firstOccurrences es, asked)
  | .error _ => (Entity.inFile path content, asked)

/-- The entities of a text, kept or found now, and the finder after
that. -/
def find (f : LearnedFinder) (elapsed : Nat) (path : Path) (content : Text) :
    List Entity × LearnedFinder :=
  match if f.cacheEnabled then f.cache.get? path else none with
  | some es => (es, f)
  | none =>
    let (es, asked) := f.findFresh elapsed path content
    let f := { f with asked := f.asked + asked }
    (es, if f.cacheEnabled then { f with cache := f.cache.put path es } else f)

end LearnedFinder

/-- A trained model is not part of this build, so none can be set up. -/
def learnedFinderOfSettings (_ : EntitySettings) : Except EntityError LearnedFinder :=
  .error (.backendUnavailable "built without the \x60onnx\x60 feature")

end SourceDigest
