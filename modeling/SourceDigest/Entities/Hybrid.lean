/-
Finding entities by several ways, one chosen for each file.

Large files go to the labeler and all others to the structure, as far as
each is there; otherwise patterns do. A way that cannot be set up, or that
knows nothing of a language, gives way to the patterns.
-/
import SourceDigest.Entities.Learned
import SourceDigest.Syntax.Reading

namespace SourceDigest

namespace Entity

/-- The entities that the structure of a file names, or the patterns find
when no grammar reads it. -/
def byStructure : EntityFinder := fun path content =>
  match structuralEntities path content with
  | .ok es => es
  | .error _ => inFile path content

end Entity

/-- The name of a way to find entities. -/
def EntityMethod.name : EntityMethod → Text
  | .pattern => "pattern"
  | .structural => "structural"
  | .learned => "learned"
  | .hybrid => "hybrid"

/-- Finds entities by the way that suits a file. -/
structure HybridFinder where
  learned : Option LearnedFinder
  structural : Bool
  /-- Only larger texts go to the labeler. -/
  threshold : Nat

namespace HybridFinder

/-- The finder of the ways that are set and can be set up. -/
def ofSettings (s : EntitySettings) : HybridFinder where
  learned := if s.hybridUseLearned then (learnedFinderOfSettings s).toOption else none
  structural := s.hybridUseStructural
  threshold := s.learnedSizeThreshold

/-- The way for a text of so many bytes. -/
def select (f : HybridFinder) (size : Nat) : EntityMethod :=
  if f.learned.isSome && size > f.threshold then .learned
  else if f.structural then .structural
  else .pattern

/-- The entities of a text, and the finder after that; labeling takes
`elapsed` nanoseconds. -/
def find (f : HybridFinder) (elapsed : Nat) (path : Path) (content : Text) :
    List Entity × HybridFinder :=
  match f.select (Text.byteSize content), f.learned with
  | .learned, some learned =>
    let (es, learned) := learned.find elapsed path content
    (es, { f with learned := some learned })
  | .structural, _ => (Entity.byStructure path content, f)
  | _, _ => (Entity.inFile path content, f)

end HybridFinder

namespace EntitySettings

/-- The way in which entities are found as set: the one asked for, or
patterns when it cannot be set up. -/
def methodInUse (s : EntitySettings) : EntityMethod :=
  match s.method with
  | .learned =>
    match learnedFinderOfSettings s with
    | .ok _ => .learned
    | .error _ => .pattern
  | method => method

/-- The finder that is set. -/
def finder (s : EntitySettings) : EntityFinder := fun path content =>
  match s.methodInUse with
  | .pattern => Entity.inFile path content
  | .structural => Entity.byStructure path content
  | .hybrid => ((HybridFinder.ofSettings s).find 0 path content).1
  | .learned =>
    match learnedFinderOfSettings s with
    | .ok learned => (learned.find 0 path content).1
    | .error _ => Entity.inFile path content

end EntitySettings

end SourceDigest
