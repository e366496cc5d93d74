/-
Named entities of source code: classes, functions, variables, enums and
imports, and how lists of them are narrowed down and written out.
-/
import SourceDigest.Text.Basic

namespace SourceDigest

/-- What a named entity is; `type` stands for classes and everything alike:
structures, interfaces, traits, aliases. -/
inductive EntityKind where
  | type
  | function
  | variable
  | enum
  | imported
  | other
deriving DecidableEq, Repr

/-- A name in source code together with what it names. -/
structure Entity where
  name : Text
  kind : EntityKind
deriving DecidableEq, Repr

namespace EntityKind

/-- The heading of a list of entities of this kind. -/
def plural : EntityKind → Text
  | .type => "Classes"
  | .function => "Functions"
  | .variable => "Variables"
  | .enum => "Enums"
  | .imported => "Imports"
  | .other => "Other"

/-- The word for one entity of this kind. -/
def label : EntityKind → Text
  | .type => "class"
  | .function => "function"
  | .variable => "variable"
  | .enum => "enum"
  | .imported => "import"
  | .other => "other"

/-- The labels that sequence labelers use for each kind. -/
def labels : List (EntityKind × List String) := [
  (.type, ["class", "cls", "struct", "interface", "trait", "type"]),
  (.function, ["function", "func", "fn", "method"]),
  (.variable, ["variable", "var", "const", "field"]),
  (.enum, ["enum"]),
  (.imported, ["import", "module", "mod", "package"])]

/-- The kind that a label means, in any case of ASCII letters. -/
def ofLabel (label : Text) : EntityKind :=
  match labels.find? fun row => row.2.any fun l => l.toList == Text.lowerAscii label with
  | some row => row.1
  | none => .other

/-- The kinds that can be asked for, in the order they are listed. -/
def listed : List EntityKind := [.type, .function, .variable, .enum, .imported]

end EntityKind

namespace Entity

/-- An entity with its kind in parentheses. -/
def describe (e : Entity) : Text := e.name ++ " (" ++ e.kind.label ++ ")"

/-- The names of the entities of one kind. -/
def namesOf (kind : EntityKind) (es : List Entity) : List Text :=
  (es.filter (·.kind == kind)).map (·.name)

/-- The entities of one kind on a line, if there are any. -/
def kindLine? (es : List Entity) (kind : EntityKind) : Option Text :=
  if namesOf kind es = [] then none
  else some (kind.plural ++ ": " ++ Text.join ", " (namesOf kind es))

/-- The entities as text: one line for each kind that occurs, or all in a
row, each with its kind. -/
def format (es : List Entity) (grouped : Bool) : Text :=
  if grouped then
    Text.join "\n" ((EntityKind.listed ++ [EntityKind.other]).filterMap (kindLine? es))
  else Text.join ", " (es.map describe)

end Entity

/-- The elements of a list at their first occurrence. -/
def firstOccurrences {α : Type} [DecidableEq α] (xs : List α) : List α :=
  xs.foldl (fun seen x => if x ∈ seen then seen else seen ++ [x]) []

end SourceDigest
