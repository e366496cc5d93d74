/-
Which entities are listed: the kinds asked for, one kind after the other,
and no more than asked for.
-/
import SourceDigest.Entity
import SourceDigest.Settings.Basic
import SourceDigest.Path

namespace SourceDigest

/-- Whether entities of a kind are listed. -/
def EntitySettings.lists (s : EntitySettings) : EntityKind → Bool
  | .type => s.includeClasses
  | .function => s.includeFunctions
  | .variable => s.includeVariables
  | .enum => s.includeEnums
  | .imported => s.includeImports
  | .other => false

/-- The first elements of a list; zero keeps them all. -/
def takeUnlessZero {α : Type} (n : Nat) (xs : List α) : List α := if n = 0 then xs else xs.take n

/-- The entities that are listed, kind by kind. -/
def EntitySettings.select (s : EntitySettings) (es : List Entity) : List Entity :=
  takeUnlessZero s.maxEntities <|
    (EntityKind.listed.filter s.lists).flatMap fun kind => es.filter (·.kind == kind)

/-- A way to find the entities of a text, given its path. -/
abbrev EntityFinder := Path → Text → List Entity

end SourceDigest
