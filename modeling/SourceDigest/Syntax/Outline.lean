/-
Outlines: the constructs of a source text that analysis asks about, as a
tree in source order.

A construct counts as a function, a type, a conditional, or not at all,
and may name an entity. The outline leaves out everything else that a
full syntax tree would hold.
-/
import SourceDigest.Entity
import SourceDigest.Syntax.Token
import SourceDigest.Syntax.Tree

namespace SourceDigest

/-- What a construct counts as. -/
inductive ConstructKind where
  | function
  | type
  | conditional
  | other
deriving DecidableEq, Repr

/-- A construct of a source text. -/
structure Construct where
  kind : ConstructKind
  /-- The entity that it names, as it is written. -/
  names : Option Entity := none
deriving DecidableEq, Repr

/-- The constructs of a source text. -/
abbrev Outline := Tree Construct

namespace Outline

-- ================================================================= building

def function (parts : List Outline) : Outline := .node ⟨.function, none⟩ parts

def type (parts : List Outline) : Outline := .node ⟨.type, none⟩ parts

def conditional (parts : List Outline) : Outline := .node ⟨.conditional, none⟩ parts

/-- A construct that counts as nothing. -/
def other (parts : List Outline) : Outline := .node ⟨.other, none⟩ parts

/-- The naming of an entity. -/
def named (kind : EntityKind) (name : Text) : Outline := .node ⟨.other, some ⟨name, kind⟩⟩ []

-- ================================================================== reading

/-- How often something holds of the constructs of an outline. -/
def count (o : Outline) (p : Construct → Bool) : Nat := ((Cursor.root o).walk.filter p).length

/-- A name without quotes and angle brackets around it and without a new
name behind it. -/
def cleanImport (name : Text) : Text :=
  let bare := Text.trimOf (fun c => c == '"' || c == '\x27' || c == '<' || c == '>') name
  match Text.cut? " as " bare with
  | some (before, _) => before
  | none => bare

/-- An entity with its name as it is listed, if anything is left of it. -/
def listed? (e : Entity) : Option Entity :=
  let name := Text.trim e.name
  let name := if e.kind = .imported then cleanImport name else name
  if name = [] then none else some ⟨name, e.kind⟩

/-- The entities of an outline at their first appearance. -/
def entities (o : Outline) : List Entity :=
  firstOccurrences (o.preorder.filterMap fun c => c.names.bind listed?)

end Outline

/-- How many constructs of each kind a source text holds. -/
structure ConstructCounts where
  functions : Nat
  types : Nat
  conditionals : Nat
deriving DecidableEq, Repr

namespace ConstructCounts

/-- The counts over the constructs that a walk over an outline meets. -/
def ofOutline (o : Outline) : ConstructCounts where
  functions := o.count (·.kind == .function)
  types := o.count (·.kind == .type)
  conditionals := o.count (·.kind == .conditional)

end ConstructCounts

end SourceDigest
