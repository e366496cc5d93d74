/-
Outlines of Go: the declarations of a package, and the function literals,
type declarations and conditionals inside them.

`func` opens a declaration at the top of a file when a name follows it,
with or without a receiver before, and elsewhere a literal when a body
follows its result. Without a body it is a type, and so it is behind
brackets, whose elements it describes. Declarations in parentheses hold
one specification a line.
-/
import SourceDigest.Syntax.Outline

namespace SourceDigest

namespace Outline.Packages

open Piece

/-- The pieces behind a type at the start of some pieces; they are no fewer
when no type starts there. `fuel` bounds the steps. -/
def afterType : (fuel : Nat) → List Piece → List Piece
  | 0, ps => ps
  | _, [] => []
  | fuel + 1, p :: rest =>
    if p.isMark "*" || p.isMark "..." || p.isMark "~" || p.isMark "<-" then afterType fuel rest
    else if p.isWord "map" then afterType fuel (rest.drop 1)
    else if p.isWord "chan" then
      afterType fuel (if rest.head?.any (·.isMark "<-") then rest.drop 1 else rest)
    else if p.isWord "func" then
      let result := rest.drop 1
      match result with
      | q :: _ =>
        if q.isGroup '(' then result.drop 1
        else if q.isFresh || q.isGroup '\x7b' then result
        else afterType fuel result
      | [] => []
    else if p.isWord "struct" || p.isWord "interface" then rest.drop 1
    else if p.isGroup '(' then rest
    else if p.isGroup '[' then afterType fuel rest
    else if p.word?.isSome then
      match rest with
      | dot :: name :: more =>
        let rest := if dot.isMark "." && name.word?.isSome then more else rest
        if rest.head?.any (·.isGroup '[') then rest.drop 1 else rest
      | _ => if rest.head?.any (·.isGroup '[') then rest.drop 1 else rest
    else p :: rest

/-- The body of a function and what follows it, behind its parameters. -/
def body? (fuel : Nat) (behind : List Piece) : Option (Piece × List Piece) :=
  let found (ps : List Piece) : Option (Piece × List Piece) :=
    match ps with
    | p :: rest => if p.isGroup '\x7b' then some (p, rest) else none
    | [] => none
  match behind with
  | p :: _ =>
    if p.isGroup '\x7b' then found behind
    else if p.isFresh then none
    else found (afterType fuel behind)
  | [] => none

/-- Whether a piece may end a statement that the line ends after it. -/
def endsStatement : Piece → Bool
  | .group .. => true
  | .token t => t.shape ≠ .mark || t.text = ['+', '+'] || t.text = ['-', '-']

/-- Whether a statement ends between two neighbouring pieces. -/
def breaks (p q : Piece) : Bool := p.isMark ";" || (q.isFresh && endsStatement p)

/-- The specifications among the pieces in parentheses. -/
def specs : List Piece → List (List Piece)
  | [] => []
  | p :: rest =>
    match rest.head?, specs rest with
    | some q, spec :: more => if breaks p q then [p] :: spec :: more else (p :: spec) :: more
    | _, more => [p] :: more

/-- The names that a specification declares. -/
def names (source : Text) : List Piece → List Outline
  | p :: comma :: rest =>
    if p.word?.isSome then
      named .variable (Piece.source source [p]) ::
        if comma.isMark "," then names source rest else []
    else []
  | [p] => if p.word?.isSome then [named .variable (Piece.source source [p])] else []
  | [] => []

/-- Whether a type specification names another type instead of making
one. -/
def isAlias (behindName : List Piece) : Bool :=
  match behindName with
  | p :: rest => p.isMark "=" || (p.isGroup '[' && rest.head?.any (·.isMark "="))
  | [] => false

/-- The type that a specification makes, if it makes one. -/
def typeNamed (source : Text) (name : Piece) (behindName : List Piece) : List Outline :=
  if name.word?.isSome && !isAlias behindName then
    [type [named .type (Piece.source source [name])]]
  else []

mutual
/-- The constructs of some pieces, at the top of a file or inside. `fuel`
bounds the steps. -/
def read (source : Text) : (fuel : Nat) → (top : Bool) → List Piece → List Outline
  | 0, _, _ => []
  | _, _, [] => []
  | fuel + 1, top, p :: rest =>
    match p with
    | .group _ inside _ =>
      let parts := read source fuel false inside
      match rest with
      | q :: params :: _ =>
        if p.isGroup '[' && q.isWord "func" && !q.isFresh then
          parts ++ read source fuel false [params] ++ read source fuel top (afterType fuel rest)
        else parts ++ read source fuel top rest
      | _ => parts ++ read source fuel top rest
    | .token _ =>
      if p.isWord "func" then readFunction source fuel top rest
      else if p.isWord "type" then
        match rest with
        | q :: beyond =>
          if q.isGroup '(' then
            (specs q.inside).flatMap (readType source fuel) ++ read source fuel top beyond
          else typeNamed source q beyond ++ read source fuel top beyond
        | [] => []
      else if p.isWord "const" || p.isWord "var" then
        match rest with
        | q :: beyond =>
          if q.isGroup '(' then
            (specs q.inside).flatMap (readNames source fuel) ++ read source fuel top beyond
          else names source rest ++ read source fuel top rest
        | [] => []
      else if p.isWord "import" then
        match rest with
        | q :: beyond =>
          if q.isGroup '(' then
            (q.inside.filter (·.isText)).map (fun path =>
              named .imported (Piece.source source [path])) ++ read source fuel top beyond
          else
            match (rest.take 2).find? (·.isText) with
            | some path =>
              named .imported (Piece.source source [path]) :: read source fuel top beyond
            | none => read source fuel top rest
        | [] => []
      else if p.isWord "if" || p.isWord "switch" then
        let (header, beyond) := Piece.splitAt (·.isGroup '\x7b') rest
        conditional (read source fuel false (header ++ beyond.take 1)) ::
          read source fuel top (beyond.drop 1)
      else read source fuel top rest

/-- The constructs from a function on, behind the word for it. -/
def readFunction (source : Text) : (fuel : Nat) → (top : Bool) → List Piece → List Outline
  | 0, _, _ => []
  | _, _, [] => []
  | fuel + 1, top, p :: rest =>
    let declare (name : Piece) (behind : List Piece) : List Outline :=
      let behind := behind.dropWhile (·.isGroup '[')
      let parts := read source fuel false (behind.take 1)
      match body? fuel (behind.drop 1) with
      | some (body, beyond) =>
        function (named .function (Piece.source source [name]) ::
          (parts ++ read source fuel false [body])) :: read source fuel top beyond
      | none =>
        function (named .function (Piece.source source [name]) :: parts) ::
          read source fuel top (behind.drop 1)
    if p.word?.isSome then declare p rest
    else
      match rest with
      | name :: params :: _ =>
        if top && name.word?.isSome && params.isGroup '(' then declare name (rest.drop 1)
        else readLiteral source fuel top p rest
      | _ => readLiteral source fuel top p rest

/-- The constructs from a function literal or function type on, behind its
parameters. -/
def readLiteral (source : Text) :
    (fuel : Nat) → (top : Bool) → Piece → List Piece → List Outline
  | 0, _, _, _ => []
  | fuel + 1, top, params, rest =>
    let parts := read source fuel false [params]
    match body? fuel rest with
    | some (body, beyond) =>
      function (parts ++ read source fuel false [body]) :: read source fuel top beyond
    | none => parts ++ read source fuel top rest

/-- The constructs of a type specification. -/
def readType (source : Text) : (fuel : Nat) → List Piece → List Outline
  | 0, _ => []
  | _, [] => []
  | fuel + 1, name :: rest =>
    typeNamed source name rest ++ read source fuel false rest

/-- The constructs of a specification of constants or variables. -/
def readNames (source : Text) : (fuel : Nat) → List Piece → List Outline
  | 0, _ => []
  | fuel + 1, spec => names source spec ++ read source fuel false spec
end

end Outline.Packages

end SourceDigest
