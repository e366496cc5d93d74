/-
Outlines of Python: logical lines, their headers and their statements.

A logical line goes on over line ends inside brackets. One that starts
with a word for a compound statement has a header up to its colon; what
follows the colon on the line are statements of its block. A conditional
expression is told by its `else`, since no comprehension has one. Only
assignments that stand at the top of the module name variables.
-/
import SourceDigest.Syntax.Outline

namespace SourceDigest

namespace Outline.Layout

open Piece

/-- The logical lines of a file: a piece that is the first on its line and
in no bracket starts one. -/
def logicalLines : List Piece → List (List Piece)
  | [] => []
  | p :: rest =>
    match rest.head?, logicalLines rest with
    | some q, line :: more => if q.isFresh then [p] :: line :: more else (p :: line) :: more
    | _, more => [p] :: more

/-- Words that start compound statements. -/
def compounds : List String := [
  "if", "elif", "else", "for", "while", "try", "except", "finally", "with", "def", "class",
  "async"]

/-- The pieces before the colon of a header and those behind it, given how
many lambdas are still without their colon. -/
def header : (lambdas : Nat) → List Piece → List Piece × List Piece
  | _, [] => ([], [])
  | lambdas, p :: rest =>
    if p.isMark ":" ∧ lambdas = 0 then ([], rest)
    else
      let open_ := if p.isWord "lambda" then lambdas + 1
        else if p.isMark ":" then lambdas - 1 else lambdas
      let (mine, after) := header open_ rest
      (p :: mine, after)

/-- The conditional expressions among some pieces. `fuel` bounds the
depth. -/
def expressions : (fuel : Nat) → List Piece → List Outline
  | 0, _ => []
  | _, [] => []
  | fuel + 1, p :: rest =>
    (match p with
      | .group _ inside _ => expressions fuel inside
      | .token _ => if p.isWord "else" then [conditional []] else []) ++ expressions fuel rest

/-- The modules that a plain import names. -/
def importedModules (source : Text) (ps : List Piece) : List Outline :=
  (Piece.runs (·.isMark ",") ps).map fun run => named .imported (Piece.source source run)

/-- The constructs of a simple statement, at the top of the module or
not. -/
def simple (source : Text) (fuel : Nat) (top : Bool) (ps : List Piece) : List Outline :=
  match ps with
  | [] => []
  | p :: rest =>
    if p.isWord "import" then importedModules source rest
    else if p.isWord "from" then
      let (module_, names) := Piece.splitAt (·.isWord "import") rest
      if names = [] ∨ module_.head?.any (·.isWord "__future__") then []
      else [named .imported (Piece.source source module_)]
    else
      (if top && p.word?.isSome && rest.head?.any (fun q => q.isMark "=" || q.isMark ":") then
        [named .variable (Piece.source source [p])]
      else []) ++ expressions fuel ps

/-- The constructs of the simple statements on a line. -/
def statements (source : Text) (fuel : Nat) (top : Bool) (ps : List Piece) : List Outline :=
  (Piece.runs (·.isMark ";") ps).flatMap (simple source fuel top)

/-- The construct that a header opens, around what its pieces hold. -/
def opened (source : Text) (fuel : Nat) (ps : List Piece) : List Outline :=
  match ps with
  | word :: name :: rest =>
    if word.isWord "if" || word.isWord "elif" then [conditional (expressions fuel (name :: rest))]
    else if word.isWord "class" then
      [type (named .type (Piece.source source [name]) :: expressions fuel rest)]
    else if word.isWord "def" then
      [function (named .function (Piece.source source [name]) :: expressions fuel rest)]
    else expressions fuel (name :: rest)
  | _ => []

/-- Whether a line starts a match: its word is no name there, and a case
follows. -/
def startsMatch (line : List Piece) (next : Option (List Piece)) : Bool :=
  (line.head?.any (·.isWord "match")) && line.getLast?.any (·.isMark ":") &&
    (next.bind List.head?).any (·.isWord "case")

/-- Whether a line starts a case: its word is no name there. -/
def startsCase (line : List Piece) : Bool :=
  match line with
  | word :: next :: _ =>
    word.isWord "case" && !([".", "=", ":", ",", ")"].any next.isMark) && line.any (·.isMark ":")
  | _ => false

/-- The constructs of a logical line, given the one after it. -/
def line (source : Text) (fuel : Nat) (ps : List Piece) (next : Option (List Piece)) :
    List Outline :=
  match ps with
  | [] => []
  | p :: rest =>
    if startsMatch ps next then [conditional (expressions fuel rest)]
    else if p.isAnyWord compounds || startsCase ps then
      let (head, suite) := header 0 ps
      opened source fuel (if p.isWord "async" then head.drop 1 else head) ++
        statements source fuel false suite
    else statements source fuel (p.first.indent == some 0) ps

/-- The constructs of some logical lines. -/
def lines (source : Text) (fuel : Nat) : List (List Piece) → List Outline
  | [] => []
  | ps :: rest => line source fuel ps rest.head? ++ lines source fuel rest

/-- The constructs of a file. -/
def read (source : Text) (fuel : Nat) (ps : List Piece) : List Outline :=
  lines source fuel (logicalLines ps)

end Outline.Layout

end SourceDigest
