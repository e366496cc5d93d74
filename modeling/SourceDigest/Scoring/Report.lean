/-
The report of scores: the settings, every file with its components, and
totals.
-/
import SourceDigest.Scoring.Score
import SourceDigest.Settings.Datum

namespace SourceDigest

open Datum

/-- A number, or nothing when it is not finite. -/
def Datum.finite (x : Double) : Datum := if x.isFinite then number x else null

mutual
/-- A value with nothing in place of each number that is not finite. -/
def Datum.onlyFinite : Datum → Datum
  | number x => finite x
  | list items => list (onlyFiniteItems items)
  | table fields => table (onlyFiniteFields fields)
  | d => d

/-- The items of a list, with nothing in place of each number that is not
finite. -/
def Datum.onlyFiniteItems : List Datum → List Datum
  | [] => []
  | d :: rest => d.onlyFinite :: onlyFiniteItems rest

/-- The fields of a table, with nothing in place of each number that is not
finite. -/
def Datum.onlyFiniteFields : List (Text × Datum) → List (Text × Datum)
  | [] => []
  | (name, d) :: rest => (name, d.onlyFinite) :: onlyFiniteFields rest
end

namespace ScoredFile

/-- A file as the report lists it. -/
def toDatum (f : ScoredFile) : Datum := object [
  ("components", table (f.components.map fun c => (c.1, finite c.2))),
  ("included", flag f.included),
  ("path", text f.path),
  ("score", finite f.score)]

end ScoredFile

/-- The mean of the scores; zero when there are none. -/
def meanScore (files : List ScoredFile) : Double :=
  if files = [] then 0.0
  else files.foldl (fun sum f => sum + f.score) (-0.0) / .ofNat files.length

/-- The report of some scored files. -/
def ScoringSettings.report (s : ScoringSettings) (files : List ScoredFile) : Datum :=
  let included := (files.filter (·.included)).length
  object [
    ("config", s.toDatum.onlyFinite),
    ("files", list (files.map ScoredFile.toDatum)),
    ("summary", object [
      ("average_score", finite (meanScore files)),
      ("excluded", nat (files.length - included)),
      ("included", nat included),
      ("threshold", finite s.inclusionThreshold),
      ("total", nat files.length)])]

end SourceDigest
