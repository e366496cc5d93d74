/-
Scores: named components, their sum between zero and one, and whether the
sum reaches a threshold.

The components are summed in the order of their names, starting from
negative zero, which is what the sum of no components is. Scores are
ordered by their bits, which orders every two of them: the two zeros, and
what is no number by its sign.
-/
import SourceDigest.Data.Double
import SourceDigest.Lines.Density
import SourceDigest.Table

namespace SourceDigest

/-- The score of a file. -/
structure ScoredFile where
  /-- The path below the root. -/
  path : Text
  score : Double
  components : Table Double
  included : Bool

namespace ScoredFile

/-- The score made of some components. -/
def ofComponents (path : Text) (components : Table Double) (threshold : Double) : ScoredFile :=
  let score := clampUnit (components.foldl (fun sum c => sum + c.2) (-0.0))
  { path, score, components, included := score ≥ threshold }

/-- A component by name; a missing one is zero. -/
def component (f : ScoredFile) (name : Text) : Double := (f.components.get? name).getD 0.0

end ScoredFile

namespace ScoredFile

/-- Whether a file comes before another or ties with it: by score, the
highest first, then by path. -/
def le (a b : ScoredFile) : Bool :=
  if a.score.rank = b.score.rank then Text.le a.path b.path
  else b.score.rank < a.score.rank

end ScoredFile

end SourceDigest
