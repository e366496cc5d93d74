/-
Paths of files, written with `/` between their parts.

A path is kept as the text it was given as; its parts are what it means.
Empty parts and inner `.` parts mean nothing and are not listed, so
`a//b`, `a/./b` and `a/b` have the same parts. A `.` in front is listed,
a `..` always, and a leading `/` counts as a part of its own.

Paths are ordered by their parts: the root first, then `.`, then `..`,
then names by code points.
-/
import SourceDigest.Text.Basic

namespace SourceDigest

/-- The path of a file or directory, absolute or relative. -/
abbrev Path := Text

namespace Path

/-- One step of a path. -/
inductive Part where
  | root
  | here
  | up
  | name (n : Text)
deriving DecidableEq, Repr

/-- A part as it is written. -/
def Part.text : Part → Text
  | root => ['/']
  | here => ['.']
  | up => ['.', '.']
  | name n => n

/-- What a piece between slashes means inside a path. -/
def Part.ofInner? (piece : Text) : Option Part :=
  if piece = [] ∨ piece = ['.'] then none
  else if piece = ['.', '.'] then some .up
  else some (.name piece)

/-- The parts of a path. -/
def parts (p : Path) : List Part :=
  match Text.splitOn '/' p with
  | [] => []
  | first :: inner =>
    let below := inner.filterMap Part.ofInner?
    if first = [] then
      if inner = [] then below else .root :: below
    else if first = ['.'] then .here :: below
    else (Part.ofInner? first).toList ++ below

/-- Whether a path starts at the root of the file system. -/
def isAbsolute (p : Path) : Bool := p.head? == some '/'

/-- A path as seen from a directory; an absolute path stays itself. -/
def join (dir p : Path) : Path :=
  if isAbsolute p then p
  else if dir = [] then p
  else if dir.getLast? == some '/' then dir ++ p
  else dir ++ '/' :: p

/-- The parts of a list after a leading list, if it leads. -/
def partsBelow? : (lead ps : List Part) → Option (List Part)
  | [], ps => some ps
  | _ :: _, [] => none
  | a :: lead, b :: ps => if a = b then partsBelow? lead ps else none

/-- The parts joined by slashes. -/
def ofParts (ps : List Part) : Text := Text.join ['/'] (ps.map Part.text)

/-- The path of a file seen from `root`, written with `/`; a path that is
not below `root` is written whole. -/
def relativeTo (root p : Path) : Text :=
  ofParts ((partsBelow? (parts root) (parts p)).getD (parts p))

/-- The last part, when it is a name. -/
def fileName? (p : Path) : Option Text :=
  match (parts p).getLast? with
  | some (.name n) => some n
  | _ => none

/-- A file name split at its last dot, which must not be its first
character. -/
def splitName? (name : Text) : Option (Text × Text) :=
  match Text.splitLast? '.' name with
  | some (stem, ext) => if stem = [] then none else some (stem, ext)
  | none => none

/-- What follows the last dot of the file name. -/
def extension? (p : Path) : Option Text :=
  (fileName? p).bind fun name => (splitName? name).map Prod.snd

-- ==================================================================== order

/-- The place of a kind of part in the order. -/
def Part.rank : Part → Nat
  | root => 0
  | here => 1
  | up => 2
  | name _ => 3

/-- The order of single parts. -/
def Part.le (a b : Part) : Bool :=
  match a, b with
  | .name m, .name n => Text.le m n
  | _, _ => a.rank ≤ b.rank

/-- The order of lists of parts. -/
def partsLe : List Part → List Part → Bool
  | [], _ => true
  | _ :: _, [] => false
  | a :: ps, b :: qs => if a = b then partsLe ps qs else a.le b

/-- Whether a path comes before another or has the same parts. -/
def le (p q : Path) : Bool := partsLe (parts p) (parts q)

end Path

end SourceDigest
