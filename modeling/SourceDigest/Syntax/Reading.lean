/-
From text to outline, and from outlines to entities, counts and density.
-/
import SourceDigest.Error
import SourceDigest.Lines.Density
import SourceDigest.Settings.Basic
import SourceDigest.Syntax.Declarators
import SourceDigest.Syntax.Items
import SourceDigest.Syntax.Layout
import SourceDigest.Syntax.Packages
import SourceDigest.Syntax.Scripts

namespace SourceDigest

namespace Outline

/-- The constructs of a text in some pieces, by grammar. Every step of a
reader passes a piece or goes into one, a few of them for the same piece
at most. -/
def constructs (g : Grammar) (source : Text) (ps : List Piece) : List Outline :=
  let fuel := 4 * source.length + 16
  match g with
  | .rust => Items.read source fuel true ps
  | .python => Layout.read source fuel ps
  | .javaScript => Scripts.readAll ⟨source, false⟩ fuel ps
  | .typeScript | .tsx => Scripts.readAll ⟨source, true⟩ fuel ps
  | .go => Packages.read source fuel true ps
  | .c => Declarators.readDeclarations true source false fuel ps
  | .cpp => Declarators.readDeclarations false source false fuel ps

/-- The outline of a source text. -/
def ofText (g : Grammar) (source : Text) : Outline :=
  other (constructs g source (Piece.all (Conventions.of g) source))

end Outline

/-- The entities that the structure of a file names. -/
def structuralEntities (path : Path) (content : Text) : Except EntityError (List Entity) :=
  match Grammar.ofPath? path with
  | some g => .ok (Outline.ofText g content).entities
  | none => .error (.unsupportedLanguage path)

namespace ConstructCounts

/-- The constructs of a source text. -/
def collect (g : Grammar) (content : Text) : ConstructCounts := ofOutline (Outline.ofText g content)

/-- How much the constructs weigh: two for a type, one for a function, half
for a conditional. -/
def weight (n : ConstructCounts) : Float :=
  2.0 * n.types.toFloat + n.functions.toFloat + 0.5 * n.conditionals.toFloat

/-- How dense in structure a text with such lines is: one construct to four
lines that are not blank is as dense as it gets. -/
def structureShare (n : ConstructCounts) (s : LineStats) : Float :=
  smaller (4.0 * n.weight / (max (s.total - s.blank) 1).toFloat) 1.0

/-- The mean of the share of code lines and the density of structure. -/
def density (n : ConstructCounts) (s : LineStats) : Float :=
  if s.total = 0 then 0.0
  else clampUnit ((s.code.toFloat / s.total.toFloat + n.structureShare s) / 2.0)

end ConstructCounts

/-- The density of a text by its structure, or by its lines when no grammar
reads it. -/
def structuralDensity (path : Path) (content : Text) : Float :=
  match Grammar.ofPath? path with
  | some g =>
    (ConstructCounts.collect g content).density (LineStats.collect (Language.ofPath path) content)
  | none => lineDensity path content

/-- The density of a text as set. -/
def DensityMethod.density : DensityMethod → Path → Text → Float
  | .line => lineDensity
  | .structural => structuralDensity

/-- The name of a way to judge density. -/
def DensityMethod.name : DensityMethod → Text
  | .line => "line"
  | .structural => "structural"

end SourceDigest
