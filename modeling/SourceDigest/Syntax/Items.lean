/-
Outlines of Rust: items, and the conditionals in their bodies.

An item starts where a block starts, after a semicolon, after a block, or
behind visibility, attributes and the like. Macro calls and attributes
hold tokens of their own and are passed over. In the arms of a match, an
`if` before the arrow is a guard and no conditional.
-/
import SourceDigest.Syntax.Outline

namespace SourceDigest

namespace Outline.Items

open Piece

/-- Words that are no names of macros. -/
def keywords : List String := [
  "if", "match", "while", "for", "in", "return", "else", "loop", "let", "move", "break", "as",
  "mut", "ref", "where", "impl", "dyn", "unsafe", "async", "await", "yield", "continue"]

/-- Words that an item may start with before the word that tells what it
is. -/
def leads : List String := ["pub", "unsafe", "async", "default", "extern"]

/-- The pieces of an item up to and with its body or semicolon, the rest,
and whether there is a body. -/
def itemEnd : List Piece → List Piece × List Piece × Bool
  | [] => ([], [], false)
  | p :: rest =>
    if p.isGroup '\x7b' then ([p], rest, true)
    else if p.isMark ";" then ([p], rest, false)
    else
      let (mine, after, body) := itemEnd rest
      (p :: mine, after, body)

/-- Whether a piece goes on with an expression that a block may end. -/
def goesOn (p : Piece) : Bool :=
  p.isAnyWord ["else", "as"] || [".", "?", "==", "!=", "&&", "+", "*", "/", "%", "<", ">", "<=",
    ">=", "..", "=", "^"].any p.isMark

/-- The pieces of the expression of an arm and what follows the arm. -/
def armBody : List Piece → List Piece × List Piece
  | [] => ([], [])
  | p :: rest =>
    if p.isMark "," then ([], rest)
    else if p.isGroup '\x7b' && !(rest.head?.any goesOn) then
      ([p], if rest.head?.any (·.isMark ",") then rest.tail else rest)
    else
      let (mine, after) := armBody rest
      (p :: mine, after)

/-- What follows an attribute behind its number sign. -/
def afterAttribute (ps : List Piece) : List Piece :=
  match ps.dropWhile (·.isMark "!") with
  | p :: rest => if p.isGroup '[' then rest else p :: rest
  | [] => []

/-- Naming an entity by a piece. -/
def nameOf (source : Text) (kind : EntityKind) (p : Piece) : Outline :=
  named kind (Piece.source source [p])

mutual
/-- The constructs of some pieces, the first of which starts an item or
not. `fuel` bounds the steps. -/
def read (source : Text) : (fuel : Nat) → (atItem : Bool) → List Piece → List Outline
  | 0, _, _ => []
  | _, _, [] => []
  | fuel + 1, atItem, p :: rest =>
    match p, rest with
    | .group .., _ =>
      let block := p.isGroup '\x7b'
      read source fuel block p.inside ++ read source fuel block rest
    | .token t, _ =>
      if p.isMark "#" then read source fuel atItem (afterAttribute rest)
      else if p.isMark ";" then read source fuel true rest
      else if t.shape ≠ .word then
        read source fuel (atItem && t.shape = .text) rest
      else readWord source fuel atItem p rest

/-- The constructs of pieces that start with a word. -/
def readWord (source : Text) :
    (fuel : Nat) → (atItem : Bool) → Piece → List Piece → List Outline
  | 0, _, _, _ => []
  | fuel + 1, atItem, p, rest =>
    match rest with
    | [] => []
    | next :: after =>
      let isName := next.word?.isSome
      let item (make : List Outline → Outline) (kind : EntityKind) : List Outline :=
        let (mine, beyond, _) := itemEnd after
        make (nameOf source kind next :: read source fuel false mine) ::
          read source fuel true beyond
      if next.isMark "!" && !p.isAnyWord keywords then
        match after with
        | g :: beyond =>
          if g.isGroup '\x7b' || g.isGroup '(' || g.isGroup '[' then
            read source fuel (g.isGroup '\x7b') beyond
          else
            match beyond with
            | body :: beyond' =>
              if p.isWord "macro_rules" && g.word?.isSome then
                read source fuel (body.isGroup '\x7b') beyond'
              else read source fuel false after
            | [] => []
        | [] => []
      else if p.isWord "fn" && isName then
        let (mine, beyond, body) := itemEnd after
        let parts := read source fuel false mine
        (if body then function (nameOf source .function next :: parts) else other parts) ::
          read source fuel true beyond
      else if p.isWord "struct" && isName then item type .type
      else if p.isWord "trait" && isName then item type .type
      else if p.isWord "enum" && isName then item type .enum
      else if p.isWord "mod" && atItem && isName then item other .imported
      else if p.isWord "impl" && atItem then
        let (mine, beyond, body) := itemEnd rest
        let parts := read source fuel false mine
        (if body then type parts else other parts) :: read source fuel true beyond
      else if p.isWord "use" && atItem then
        let (tree, beyond) := Piece.splitAt (·.isMark ";") rest
        named .imported (Piece.source source tree) :: read source fuel true beyond
      else if p.isAnyWord ["const", "static"] && atItem then
        let (name, beyond) := if next.isWord "mut" then (after.head?, after.drop 1)
          else (some next, after)
        match name with
        | some n =>
          if n.word?.isSome && beyond.head?.any (·.isMark ":") then
            nameOf source .variable n :: read source fuel false beyond
          else read source fuel atItem rest
        | none => []
      else if p.isWord "if" then
        let (mine, beyond, _) := itemEnd rest
        conditional (read source fuel false mine) :: read source fuel true beyond
      else if p.isWord "match" then
        let (header, beyond) := Piece.splitAt (·.isGroup '\x7b') rest
        match beyond with
        | body :: beyond' =>
          conditional (read source fuel false header ++ readArms source fuel body.inside) ::
            read source fuel true beyond'
        | [] => [conditional (read source fuel false header)]
      else if p.isWord "pub" && atItem && next.isGroup '(' then read source fuel true after
      else read source fuel (atItem && p.isAnyWord leads) rest

/-- The constructs of the arms of a match. -/
def readArms (source : Text) : (fuel : Nat) → List Piece → List Outline
  | 0, _ => []
  | _, [] => []
  | fuel + 1, p :: rest =>
    let (pattern, beyond) := Piece.splitAt (·.isMark "=>") (p :: rest)
    let (body, after) := armBody (beyond.drop 1)
    read source fuel false (pattern.filter fun q => !q.isWord "if") ++
      read source fuel false body ++ readArms source fuel after
end

end Outline.Items

end SourceDigest
