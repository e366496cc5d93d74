/-
Line statistics of a source text: how many lines are code, comment and
blank, how many code lines declare something, and how deeply braces nest.

# Comments

A line is judged by how it begins, blanks apart. A block comment or a
triple-quoted string that a line begins with and does not close makes
every line a comment up to and including the one that holds its end.
What stands behind the end of a block on its line is not looked at, and
neither is a block that opens in the middle of a line.

# Depth

Braces on code lines count, wherever they stand; a closing brace without
an open one counts for nothing.
-/
import SourceDigest.Declaration

namespace SourceDigest

/-- What a line is. -/
inductive LineClass where
  | code
  | comment
  | blank
deriving DecidableEq, Repr

namespace LineClass

/-- The two triple quotes. -/
def tripleQuotes : List Text := ["\"\"\"", "\x27\x27\x27"]

/-- Marks that a text begins with, taken off: what closes the block they
open, and the rest. -/
def opensBlock? (marks : CommentSyntax) (trimmed : Text) : Option (Text × Text) :=
  let byBlock := marks.block.bind fun (opening, closing) =>
    (Text.dropLead? opening trimmed).map fun rest => (closing, rest)
  let byQuote :=
    if marks.docstrings then
      tripleQuotes.findSome? fun quote =>
        (Text.dropLead? quote trimmed).map fun rest => (quote, rest)
    else none
  byBlock.or byQuote

/-- The class of a line, given what closes the block it lies in, and what
closes the block that the next line lies in. -/
def of (marks : CommentSyntax) (inside : Option Text) (line : Text) : LineClass × Option Text :=
  let trimmed := Text.trim line
  match inside with
  | some closing => (comment, if Text.holds trimmed closing then none else some closing)
  | none =>
    if trimmed.isEmpty then (blank, none)
    else
      match opensBlock? marks trimmed with
      | some (closing, rest) => (comment, if Text.holds rest closing then none else some closing)
      | none =>
        if marks.line.any (Text.startsWith trimmed) then (comment, none) else (code, none)

/-- The classes of consecutive lines. -/
def ofLines (marks : CommentSyntax) : (inside : Option Text) → List Text → List LineClass
  | _, [] => []
  | inside, line :: rest =>
    (of marks inside line).1 :: ofLines marks (of marks inside line).2 rest

end LineClass

/-- Counts over the lines of a text. -/
structure LineStats where
  total : Nat := 0
  code : Nat := 0
  comment : Nat := 0
  blank : Nat := 0
  functions : Nat := 0
  classes : Nat := 0
  imports : Nat := 0
  /-- The deepest nesting of braces on code lines. -/
  maxDepth : Nat := 0
deriving DecidableEq, Repr

namespace LineStats

/-- How deep braces are nested now, and how deep they were at most. -/
structure Nesting where
  depth : Nat := 0
  deepest : Nat := 0

/-- The nesting after one more character. -/
def Nesting.step (n : Nesting) (c : Char) : Nesting :=
  if c = '\x7b' then ⟨n.depth + 1, max n.deepest (n.depth + 1)⟩
  else if c = '\x7d' then { n with depth := n.depth - 1 }
  else n

/-- Counts a code line that declares something of a kind. -/
def addDeclaration (s : LineStats) : Option EntityKind → LineStats
  | some .function => { s with functions := s.functions + 1 }
  | some .type | some .enum => { s with classes := s.classes + 1 }
  | some .imported => { s with imports := s.imports + 1 }
  | _ => s

/-- Counts a line of a given class. -/
def addLine (s : LineStats) (language : Language) (line : Text) : LineClass → LineStats
  | .blank => { s with total := s.total + 1, blank := s.blank + 1 }
  | .comment => { s with total := s.total + 1, comment := s.comment + 1 }
  | .code =>
    addDeclaration { s with total := s.total + 1, code := s.code + 1 }
      (Entity.kindOfLine? language line)

/-- The lines of a text with their classes. -/
def classified (language : Language) (content : Text) : List (Text × LineClass) :=
  let ls := Text.lines content
  ls.zip (LineClass.ofLines language.comments none ls)

/-- The statistics of a text. -/
def collect (language : Language) (content : Text) : LineStats :=
  let ls := classified language content
  let counts : LineStats := ls.foldl (fun s l => addLine s language l.1 l.2) {}
  let codeLines := (ls.filter fun l => l.2 == .code).map fun l => Text.trim l.1
  { counts with maxDepth := (codeLines.flatten.foldl Nesting.step {}).deepest }

end LineStats

end SourceDigest
