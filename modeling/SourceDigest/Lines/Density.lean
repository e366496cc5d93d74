/-
Code density: how much of a file is code that does something, as a number
between zero and one.

The share of code lines is raised for declarations and for a healthy
portion of comments, and lowered for long code without any comment and
for code that is mostly imports.
-/
import SourceDigest.Lines.Stats

namespace SourceDigest

/-- A number held between zero and one; what is no number stays as it is. -/
def clampUnit {α : Type} [OfScientific α] [LT α] [DecidableLT α] (x : α) : α :=
  if x < 0.0 then 0.0 else if x > 1.0 then 1.0 else x

/-- The smaller of two numbers. -/
def smaller (x y : Float) : Float := if y < x then y else x

namespace LineStats

/-- What declarations add: two hundredths each, at most a fifth. -/
def declarationBonus (s : LineStats) : Float :=
  smaller ((s.functions + s.classes).toFloat * 0.02) 0.2

/-- Whether there are between one and three comment lines to ten of code. -/
def isWellCommented (s : LineStats) : Bool :=
  s.code > 0 && (let ratio := s.comment.toFloat / s.code.toFloat; 0.1 ≤ ratio && ratio ≤ 0.3)

/-- The density that the counts amount to. -/
def density (s : LineStats) : Float :=
  if s.total = 0 then 0.0
  else
    let share := s.code.toFloat / s.total.toFloat + s.declarationBonus
    let share := if s.comment = 0 && s.code > 20 then share - 0.1 else share
    let share := if s.isWellCommented then share + 0.1 else share
    let share := if s.imports.toFloat > s.code.toFloat * 0.3 then share - 0.15 else share
    clampUnit share

end LineStats

/-- The density of a text by its lines. -/
def lineDensity (path : Path) (content : Text) : Float :=
  (LineStats.collect (Language.ofPath path) content).density

end SourceDigest
