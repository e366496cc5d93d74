/-
Outlines of C and C++: function definitions, the structures, classes and
enums that are defined or mentioned, and conditionals.

Declarations stand at the top of a file, in namespaces and linkage blocks,
and in the bodies of classes. A declaration is a function definition when
a block follows its parameters, or when it is defaulted, deleted or, in a
class, pure.
The function is named when its parameters directly follow the name; a
name that a pointer or reference mark stands before is not looked for.
Everywhere else only types and conditionals count.
-/
import SourceDigest.Syntax.Outline

namespace SourceDigest

namespace Outline.Declarators

open Piece

/-- Words whose parentheses hold no parameters. -/
def attributes : List String := [
  "__attribute__", "__declspec", "alignas", "_Alignas", "decltype", "noexcept", "throw",
  "requires", "explicit", "__asm__", "asm", "typeof", "__typeof__"]

/-- Words that open the head of a type. -/
def typeHeads : List String := ["struct", "class", "union", "enum"]

/-- How far the name of an operator has been read. -/
inductive OperatorName where
  /-- No such name is being read. -/
  | none
  /-- The word for it has been read. -/
  | announced
  /-- The operator itself has been read, too. -/
  | given
deriving DecidableEq

/-- What is known of a declaration while its pieces are read. -/
structure Seen where
  /-- The piece before. -/
  before : Option Piece := none
  /-- How many angle brackets of a type are open. -/
  angles : Nat := 0
  operator : OperatorName := .none
  /-- Whether its parameters have been read. -/
  params : Bool := false
  /-- Whether it has a value. -/
  value : Bool := false
  /-- Whether members are being initialized. -/
  members : Bool := false

/-- Whether a piece may stand directly before parameters. -/
def namesParams (p : Piece) : Bool := (p.word?.isSome && !p.isAnyWord attributes) || p.isMark ">"

/-- Whether a piece holds the parameters. -/
def Seen.startsParams (s : Seen) (p : Piece) : Bool :=
  p.isGroup '(' && !s.value && !s.params &&
    (s.operator = .given ||
      (s.operator = .none && s.angles = 0 && s.before.any namesParams))

/-- Reading one more piece of a declaration. -/
def Seen.step (s : Seen) (p : Piece) : Seen :=
  { before := some p
    angles :=
      if s.value || s.operator ≠ .none then s.angles
      else if p.isMark "<" then s.angles + 1
      else if p.isMark ">" then s.angles - 1
      else s.angles
    operator :=
      if p.isWord "operator" then .announced
      else if s.operator = .announced then .given
      else if p.isGroup '(' then .none
      else s.operator
    params := s.params || s.startsParams p
    value := s.value || (p.isMark "=" && s.operator = .none)
    members := s.members || (s.params && p.isMark ":") }

/-- Whether a block ends a function definition. -/
def Seen.isBody (s : Seen) : Bool :=
  s.params && !s.value && (!s.members || s.before.any fun p => p.isGroup '(' || p.isGroup '\x7b')

/-- How a declaration ends. -/
inductive Ending where
  /-- As one that defines no function. -/
  | plain
  /-- With the body of a function. -/
  | body
  /-- As a function that is defaulted or deleted. -/
  | settled
  /-- As a function that is left to others. -/
  | pure
deriving DecidableEq

/-- How a declaration ends with a semicolon. -/
def Seen.ending (s : Seen) : Ending :=
  if !(s.params && s.value) then .plain
  else if s.before.any (·.isAnyWord ["default", "delete"]) then .settled
  else if s.before.any fun p => p.first.shape = .number && p.first.text = ['0'] then .pure
  else .plain

/-- The handlers behind the body of a function, and what follows them. -/
def handlers : List Piece → List Piece × List Piece
  | word :: caught :: body :: rest =>
    if word.isWord "catch" && caught.isGroup '(' && body.isGroup '\x7b' then
      let (mine, after) := handlers rest
      (word :: caught :: body :: mine, after)
    else ([], word :: caught :: body :: rest)
  | ps => ([], ps)

/-- The pieces of a declaration, how it ends, and what follows it. -/
def declaration (s : Seen) : List Piece → List Piece × Ending × List Piece
  | [] => ([], .plain, [])
  | p :: rest =>
    if p.isMark ";" then ([p], s.ending, rest)
    else if p.isGroup '\x7b' && s.isBody then
      let (mine, after) := handlers rest
      (p :: mine, .body, after)
    else
      let (mine, ending, after) := declaration (s.step p) rest
      (p :: mine, ending, after)

/-- What follows template parameters behind their first angle bracket. -/
def afterAngles : (depth : Nat) → List Piece → List Piece
  | _, [] => []
  | depth, p :: rest =>
    if p.isMark "<" then afterAngles (depth + 1) rest
    else if p.isMark ">" then if depth ≤ 1 then rest else afterAngles (depth - 1) rest
    else afterAngles depth rest

/-- The name that some pieces start with, read backwards, with what
qualifies it; `angles` tells how many angle brackets are open. -/
def nameBackwards : (angles : Nat) → List Piece → List Piece
  | _, [] => []
  | angles + 1, p :: rest =>
    p :: nameBackwards
      (if p.isMark ">" then angles + 2 else if p.isMark "<" then angles else angles + 1) rest
  | 0, p :: rest =>
    if p.isMark "::" || p.isMark "~" then p :: nameBackwards 0 rest
    else if p.isMark ">" then p :: nameBackwards 1 rest
    else if p.word?.isSome then
      let isQualified := rest.head?.any fun q => q.isMark "::" || q.isMark "~"
      p :: if isQualified then nameBackwards 0 rest else []
    else []

/-- The name at the end of some pieces before parameters, with what
qualifies it. -/
def nameBefore (ps : List Piece) : List Piece := (nameBackwards 0 ps.reverse).reverse

/-- Whether some pieces name a conversion to a type, given those behind the
word for operators. -/
def isConversion (ps : List Piece) : Bool :=
  ps.head?.any fun p => p.word?.isSome && !p.isAnyWord ["new", "delete", "co_await"]

/-- The pieces of a function definition before the parameters, and those
from there on. -/
def atParams (s : Seen) : List Piece → List Piece × List Piece
  | [] => ([], [])
  | p :: rest =>
    if s.startsParams p then ([], p :: rest)
    else
      let (before, after) := atParams (s.step p) rest
      (p :: before, after)

/-- The name that a function definition gives, if its parameters directly
follow it: the pieces before the name, and the name. -/
def definedName (plain : Bool) (before params : List Piece) : List Piece × List Piece :=
  let operator := before.dropWhile fun p => !p.isWord "operator"
  let qualified := before.take (before.length - operator.length)
  let name :=
    if operator = [] then nameBefore before
    else (if qualified.getLast?.any (·.isMark "::") then nameBefore qualified else []) ++ operator
  let lead := before.take (before.length - name.length)
  let isPointed := lead.getLast?.any fun p => p.isMark "*" || p.isMark "&" || p.isMark "&&"
  let isWrapped := (params.drop 1).head?.any (·.isGroup '(')
  if name = [] || isPointed || isWrapped || isConversion (operator.drop 1) ||
    (plain && (name.length ≠ 1 || lead = [])) then (before, [])
  else (lead, name)

/-- Words that may stand before the name of a constructor. -/
def constructorLeads : List String := ["inline", "explicit", "constexpr", "consteval", "virtual"]

/-- Whether a declaration of such an ending defines a function: in a class
all do that have a body or settle it, elsewhere those without a type may
settle it as well. -/
def defines (inClass : Bool) (lead : List Piece) : Ending → Bool
  | .plain => false
  | .body => true
  | .settled => inClass || lead.all (·.isAnyWord constructorLeads)
  | .pure => inClass

/-- The path on an include line. -/
def includedPath (directive : Text) : Text :=
  let spaces := fun c => c == ' ' || c == '\t'
  (((directive.drop 1).dropWhile spaces).drop 7).dropWhile spaces

/-- The pieces of the name of a type and what follows it. -/
def typeName (plain : Bool) : List Piece → List Piece × List Piece
  | p :: rest =>
    if p.word?.isSome then
      match rest with
      | q :: more =>
        if q.isMark "::" && !plain then
          let (name, after) := typeName plain more
          (p :: q :: name, after)
        else if q.isMark "<" && !plain then
          let after := afterAngles 1 more
          (p :: q :: more.take (more.length - after.length), after)
        else ([p], rest)
      | [] => ([p], [])
    else ([], p :: rest)
  | [] => ([], [])

/-- What follows attributes in front of the name of a type. -/
def afterAttributes : List Piece → List Piece
  | p :: q :: rest =>
    if p.isAnyWord attributes && q.isGroup '(' then afterAttributes rest
    else if p.isGroup '[' && p.inside.head?.any (·.isGroup '[') then afterAttributes (q :: rest)
    else p :: q :: rest
  | ps => ps

/-- Words that statements start with. -/
def statementWords : List String := [
  "if", "else", "for", "while", "do", "switch", "case", "return", "goto", "break", "continue",
  "try", "throw"]

/-- Whether a piece ends a statement. -/
def endsStatement (p : Piece) : Bool := p.isGroup '\x7b' || p.isMark ";"

/-- Whether a namespace or a linkage block starts with a piece, given what
follows it. -/
def opensBlock (p : Piece) (rest : List Piece) : Bool :=
  p.isWord "namespace" || (p.isWord "extern" && (rest.drop 1).head?.any (·.isGroup '\x7b')) ||
    (p.isWord "inline" && rest.head?.any (·.isWord "namespace"))

mutual
/-- The types and conditionals among some pieces; `plain` tells C from C++.
`fuel` bounds the steps. -/
def read (plain : Bool) (source : Text) : (fuel : Nat) → List Piece → List Outline
  | 0, _ => []
  | _, [] => []
  | fuel + 1, p :: rest =>
    match p with
    | .group _ inside _ => read plain source fuel inside ++ read plain source fuel rest
    | .token t =>
      if t.shape = .included then
        named .imported (includedPath t.text) :: read plain source fuel rest
      else if p.isWord "if" || p.isWord "switch" || p.isMark "?" then
        conditional [] :: read plain source fuel rest
      else if p.isWord "template" && !plain && rest.head?.any (·.isMark "<") then
        read plain source fuel (afterAngles 1 (rest.drop 1))
      else if p.isWord "friend" && !plain && rest.head?.any (·.isAnyWord typeHeads) then
        read plain source fuel (rest.drop 1)
      else if p.isWord "enum" then
        let behind := afterAttributes
          (if plain then rest else rest.dropWhile (·.isAnyWord ["class", "struct"]))
        let (name, after) := typeName plain behind
        (if name = [] then [] else [named .enum (Piece.source source name)]) ++
          read plain source fuel after
      else if p.isWord "struct" || (!plain && (p.isWord "class" || p.isWord "union")) then
        readType plain source fuel (!p.isWord "union") (afterAttributes rest)
      else read plain source fuel rest

/-- The constructs from the head of a type on, behind the word for it. -/
def readType (plain : Bool) (source : Text) :
    (fuel : Nat) → (counts : Bool) → List Piece → List Outline
  | 0, _, _ => []
  | fuel + 1, counts, ps =>
    let (name, after) := typeName plain ps
    let based := after.dropWhile fun p => !plain && p.isWord "final"
    let beyond :=
      if !plain && based.head?.any (·.isMark ":") then
        (based.dropWhile fun p => !p.isGroup '\x7b' && !p.isMark ";")
      else based
    let bases := based.take (based.length - beyond.length)
    match beyond.head?.filter (·.isGroup '\x7b') with
    | some body =>
      let parts := (if counts then naming name else []) ++ read plain source fuel bases ++
        readDeclarations plain source true fuel body.inside
      (if counts then type parts else other parts) :: read plain source fuel (beyond.drop 1)
    | none =>
      (if name = [] then [] else if counts then [type (naming name)] else []) ++
        read plain source fuel after
where
  /-- Naming a type, when it has a name. -/
  naming (name : List Piece) : List Outline :=
    if name = [] then [] else [named .type (Piece.source source name)]

/-- The constructs of some declarations, in a class or elsewhere. -/
def readDeclarations (plain : Bool) (source : Text) (inClass : Bool) :
    (fuel : Nat) → List Piece → List Outline
  | 0, _ => []
  | _, [] => []
  | fuel + 1, p :: rest =>
    let onward := readDeclarations plain source inClass fuel
    if p.isMark ";" || p.isMark ":" then onward rest
    else if p.first.shape = .included then read plain source fuel [p] ++ onward rest
    else if p.isWord "template" && rest.head?.any (·.isMark "<") then
      onward (afterAngles 1 (rest.drop 1))
    else if p.isAnyWord ["public", "private", "protected"] && rest.head?.any (·.isMark ":") then
      onward (rest.drop 1)
    else if p.isAnyWord statementWords then
      let (mine, after) := Piece.splitAt endsStatement (p :: rest)
      read plain source fuel (mine ++ after.take 1) ++ onward (after.drop 1)
    else if opensBlock p rest then
      let block := rest.dropWhile fun q => !endsStatement q
      onward (block.head?.elim [] inside) ++ onward (block.drop 1)
    else
      let (mine, ending, after) := declaration {} (p :: rest)
      let (before, params) := atParams {} mine
      let (lead, name) := definedName plain before params
      (if defines inClass lead ending then
        [function (read plain source fuel lead ++
          (if name = [] then [] else [named .function (Piece.source source name)]) ++
          read plain source fuel params)]
      else read plain source fuel mine) ++ onward after
end

end Outline.Declarators

end SourceDigest
