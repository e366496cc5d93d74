/-
Outlines of JavaScript and TypeScript.

A statement starts where a block starts, after a semicolon or a block,
behind the head of an `if` or a loop, and on a new line behind a piece
that ends an operand. A brace where a statement starts opens a block, and
an object elsewhere. A function or class is a declaration where a
statement starts and it has a name, and an expression elsewhere.

Types hold nothing to report and are passed over: type arguments leave
the list of pieces before it is read, annotations while it is read.
-/
import SourceDigest.Syntax.Conventions
import SourceDigest.Syntax.Outline

namespace SourceDigest

namespace Outline.Scripts

open Piece

-- ====================================================================== types

/-- Whether a piece may stand among type arguments. -/
def inTypes : Piece → Bool
  | .group .. => true
  | .token t =>
    t.shape ≠ .mark ||
      (["<", ">", ",", ".", "|", "&", "?", ":", "=>", "...", "=", "-"] : List String).any
        fun m => t.text == m.toList

/-- What follows type arguments behind their first angle bracket. -/
def afterArguments? : (depth : Nat) → List Piece → Option (List Piece)
  | _, [] => none
  | depth, p :: rest =>
    if !inTypes p then none
    else if p.isMark "<" then afterArguments? (depth + 1) rest
    else if p.isMark ">" then if depth = 0 then some rest else afterArguments? (depth - 1) rest
    else afterArguments? depth rest

/-- Whether a piece ends an operand. -/
def endsOperand : Piece → Bool
  | .group .. => true
  | .token t => Text.endsOperand (some t) || t.text = ['+', '+'] || t.text = ['-', '-']

/-- Whether an angle bracket opens type arguments, given the piece before
it: they do not compare two operands. -/
def opensArguments (before : Option Piece) (rest : List Piece) : Bool :=
  match afterArguments? 0 rest with
  | none => false
  | some [] => true
  | some (p :: _) =>
    !(before.any endsOperand) || p.isAnyWord ["extends", "implements"] || p.isFresh ||
      match p with
      | .group .. => true
      | .token t => t.shape = .mark

/-- Some pieces without type arguments, given how many are open. -/
def withoutArguments : (depth : Nat) → (before : Option Piece) → List Piece → List Piece
  | _, _, [] => []
  | depth + 1, before, p :: rest =>
    if p.isMark "<" then withoutArguments (depth + 2) before rest
    else if p.isMark ">" then withoutArguments depth before rest
    else withoutArguments (depth + 1) before rest
  | 0, before, p :: rest =>
    if p.isMark "<" && opensArguments before rest then withoutArguments 1 before rest
    else p :: withoutArguments 0 (some p) rest

/-- Words that a type goes on behind. -/
def typeLeads : List String := [
  "keyof", "typeof", "readonly", "infer", "unique", "asserts", "abstract", "new"]

mutual
/-- What follows a type at the start of some pieces. `fuel` bounds the
steps. -/
def afterType : (fuel : Nat) → List Piece → List Piece
  | 0, ps => ps
  | _, [] => []
  | fuel + 1, p :: rest =>
    if p.isMark "|" || p.isMark "&" || p.isMark "-" || p.isAnyWord typeLeads then
      afterType fuel rest
    else
      match p with
      | .group .. => afterPart fuel (p.isGroup '(') rest
      | .token t => if t.shape = .mark then p :: rest else afterPart fuel false rest

/-- What follows a type behind one of its parts, which may be parameters or
not. -/
def afterPart : (fuel : Nat) → (params : Bool) → List Piece → List Piece
  | 0, _, ps => ps
  | _, _, [] => []
  | fuel + 1, params, p :: rest =>
    if p.isMark "." then afterPart fuel false (rest.drop 1)
    else if p.isGroup '[' && !p.isFresh then afterPart fuel false rest
    else if p.isMark "|" || p.isMark "&" || p.isWord "is" then afterType fuel rest
    else if p.isWord "extends" then afterChoice fuel (afterType fuel rest)
    else if p.isMark "=>" && params then afterType fuel rest
    else p :: rest

/-- What follows the choice between two types that may start here. -/
def afterChoice : (fuel : Nat) → List Piece → List Piece
  | 0, ps => ps
  | _, [] => []
  | fuel + 1, p :: rest =>
    if p.isMark "?" then
      match afterType fuel rest with
      | q :: beyond => if q.isMark ":" then afterType fuel beyond else q :: beyond
      | [] => []
    else p :: rest
end

-- ================================================================= the script

/-- A text that is being read, and whether it has types in it. -/
structure Script where
  source : Text
  typed : Bool

namespace Script

/-- The pieces in a group. -/
def enter (s : Script) (g : Piece) : List Piece :=
  if s.typed then withoutArguments 0 none g.inside else g.inside

/-- What follows the annotation that may start here. -/
def afterAnnotation (s : Script) (fuel : Nat) (ps : List Piece) : List Piece :=
  match ps with
  | p :: rest => if s.typed && p.isMark ":" then afterType fuel rest else ps
  | [] => []

/-- Whether an arrow follows parameters and their annotation. -/
def isArrow (s : Script) (fuel : Nat) (behind : List Piece) : Bool :=
  (s.afterAnnotation fuel behind).head?.any (·.isMark "=>")

/-- Naming an entity by some pieces. -/
def name (s : Script) (kind : EntityKind) (ps : List Piece) : Outline :=
  named kind (Piece.source s.source ps)

end Script

/-- Where in a script a piece stands. -/
structure Place where
  /-- Whether a statement may start there. -/
  start : Bool
  /-- Whether variables are being declared. -/
  declares : Bool := false
  /-- The piece before. -/
  before : Option Piece := none

namespace Place

/-- Whether a statement may end with a piece at the end of its line. -/
def mayEnd (p : Piece) : Bool := endsOperand p || p.isWord "return"

/-- Whether a statement starts with a piece. -/
def starts (at_ : Place) (p : Piece) : Bool :=
  at_.start || (p.isFresh && at_.before.any mayEnd && p.word?.isSome &&
    !p.isAnyWord ["in", "of", "instanceof", "as", "satisfies"])

end Place

/-- Whether a question mark asks a question, given what follows it. -/
def asks (rest : List Piece) : Bool :=
  rest.head?.any fun p => !([":", ",", "=", ")"].any p.isMark)

/-- The pieces of a label up to its colon and those behind it, given how
many questions are open. -/
def label : (asked : Nat) → List Piece → List Piece × List Piece
  | _, [] => ([], [])
  | asked, p :: rest =>
    if p.isMark ":" ∧ asked = 0 then ([], rest)
    else
      let asked := if p.isMark "?" then asked + 1 else if p.isMark ":" then asked - 1 else asked
      let (mine, after) := label asked rest
      (p :: mine, after)

/-- The text that an import takes from, and what follows it. -/
def importedFrom? : List Piece → Option (Piece × List Piece)
  | [] => none
  | p :: rest =>
    if p.isText then some (p, rest)
    else if p.isMark ";" || p.isMark "=" then none
    else importedFrom? rest

/-- The value of a member and what follows it. -/
def memberValue (before : Option Piece) : List Piece → List Piece × List Piece
  | [] => ([], [])
  | p :: rest =>
    let startsMember := p.isFresh && before.any endsOperand &&
      match p with
      | .group .. => false
      | .token t => t.shape ≠ .mark || t.text = ['#'] || t.text = ['@']
    if p.isMark "," || p.isMark ";" then ([], rest)
    else if startsMember && !p.isAnyWord ["in", "instanceof", "as", "satisfies"] then
      ([], p :: rest)
    else
      let (mine, after) := memberValue (some p) rest
      (p :: mine, after)

/-- Words that may stand before the name of a member. -/
def memberLeads : List String := [
  "static", "async", "get", "set", "public", "private", "protected", "readonly", "override",
  "abstract", "declare", "accessor"]

/-- Whether a piece only leads up to the name of a member, given what
follows it. -/
def leadsMember (p : Piece) (rest : List Piece) : Bool :=
  p.isMark "*" || (p.isAnyWord memberLeads &&
    rest.head?.any fun q => !q.isGroup '(' && !(["=", ";", ":", "?", "!", ","].any q.isMark))

/-- The arguments of a decorator and what follows it, behind its sign. -/
def decorator : List Piece → List Piece × List Piece
  | _ :: dot :: rest =>
    if dot.isMark "." then decorator rest
    else if dot.isGroup '(' then ([dot], rest)
    else ([], dot :: rest)
  | _ => ([], [])

-- ==================================================================== reading

mutual
/-- The constructs of some pieces from a place on. `fuel` bounds the
steps. -/
def read (s : Script) : (fuel : Nat) → Place → List Piece → List Outline
  | 0, _, _ => []
  | _, _, [] => []
  | fuel + 1, place, p :: rest =>
    let starts := place.starts p
    let declares := place.declares && !starts
    let next : Place := ⟨false, declares, some p⟩
    match p with
    | .group .. =>
      if p.isGroup '\x60' || p.isGroup '<' then
        embedded s fuel p.inside ++ read s fuel next rest
      else if p.isGroup '\x7b' && starts then
        read s fuel ⟨true, false, none⟩ (s.enter p) ++ read s fuel ⟨true, false, some p⟩ rest
      else if p.isGroup '\x7b' then members s fuel false (s.enter p) ++ read s fuel next rest
      else if p.isGroup '(' && s.isArrow fuel rest then
        parameters s fuel (s.enter p) ++ read s fuel next (s.afterAnnotation fuel rest)
      else read s fuel ⟨false, false, none⟩ (s.enter p) ++ read s fuel next rest
    | .token t =>
      if t.shape = .word && !(place.before.any fun q => q.isMark "." || q.isMark "?.") then
        readWord s fuel ⟨starts, declares, place.before⟩ p rest
      else if p.isMark ";" then read s fuel ⟨true, false, some p⟩ rest
      else if p.isMark "," && declares then declarators s fuel rest
      else if p.isMark "?" && asks rest then conditional [] :: read s fuel next rest
      else if p.isMark "=>" then
        match rest with
        | body :: beyond =>
          if body.isGroup '\x7b' then
            function (read s fuel ⟨true, false, none⟩ (s.enter body)) ::
              read s fuel ⟨false, declares, some body⟩ beyond
          else function [] :: read s fuel next rest
        | [] => [function []]
      else read s fuel next rest

/-- The constructs of pieces that start with a word, which starts a
statement or not. -/
def readWord (s : Script) : (fuel : Nat) → Place → Piece → List Piece → List Outline
  | 0, _, _, _ => []
  | fuel + 1, place, p, rest =>
    let next : Place := ⟨false, place.declares, some p⟩
    let onward : Place := ⟨true, false, some p⟩
    let first (w : String) : Bool := place.start && p.isWord w
    let behind := rest.head?
    let isNamed := behind.any (·.word?.isSome)
    if p.isWord "function" then readFunction s fuel place rest
    else if p.isWord "class" then readClass s fuel place type rest
    else if p.isAnyWord ["if", "switch"] then
      match rest with
      | g :: beyond =>
        if g.isGroup '(' then
          conditional (read s fuel ⟨false, false, none⟩ (s.enter g)) :: read s fuel onward beyond
        else read s fuel next rest
      | [] => []
    else if p.isAnyWord ["for", "while", "with", "catch"] then
      match rest.dropWhile (·.isWord "await") with
      | g :: beyond =>
        if g.isGroup '(' then header s fuel (s.enter g) ++ read s fuel onward beyond
        else read s fuel onward rest
      | [] => []
    else if p.isAnyWord ["else", "do", "try", "finally"] then read s fuel onward rest
    else if s.typed && p.isAnyWord ["as", "satisfies"] && place.before.any endsOperand then
      read s fuel next (afterType fuel rest)
    else if first "import" && !(behind.any fun q => q.isGroup '(' || q.isMark ".") then
      match importedFrom? rest with
      | some (path, beyond) =>
        s.name .imported [path] :: read s fuel ⟨false, false, some path⟩ beyond
      | none => read s fuel next rest
    else if s.typed && first "abstract" && behind.any (·.isWord "class") then
      readClass s fuel place other (rest.drop 1)
    else if s.typed && first "const" && behind.any (·.isWord "enum") then
      readEnum s fuel (rest.drop 1)
    else if s.typed && first "enum" && isNamed then readEnum s fuel rest
    else if s.typed && first "interface" && isNamed then
      type [s.name .type (rest.take 1)] ::
        read s fuel onward ((rest.dropWhile fun q => !q.isGroup '\x7b').drop 1)
    else if s.typed && first "type" && isNamed && (rest.drop 1).head?.any (·.isMark "=") then
      read s fuel next (afterType fuel (rest.drop 2))
    else if s.typed && place.start && p.isAnyWord ["namespace", "module", "global"] then
      read s fuel onward (rest.dropWhile fun q => q.word?.isSome || q.isText || q.isMark ".")
    else if place.start && p.isAnyWord ["var", "let", "const"] then declarators s fuel rest
    else if first "case" then
      let (value, beyond) := label 0 rest
      read s fuel ⟨false, false, none⟩ value ++ read s fuel onward beyond
    else if place.start && behind.any (·.isMark ":") then read s fuel onward (rest.drop 1)
    else if first "default" && behind.any (·.isGroup '\x7b') then read s fuel next rest
    else if place.start && p.isAnyWord ["export", "default", "async", "declare"] then
      read s fuel onward rest
    else read s fuel next rest

/-- The constructs from a function on, behind the word for it. -/
def readFunction (s : Script) : (fuel : Nat) → Place → List Piece → List Outline
  | 0, _, _ => []
  | fuel + 1, place, ps =>
    let yields := ps.head?.any (·.isMark "*")
    let ps := ps.dropWhile (·.isMark "*")
    let name := ps.takeWhile (·.word?.isSome)
    let isDeclared := place.start && name ≠ []
    match ps.drop name.length with
    | [] => []
    | params :: behind =>
      let parts := parameters s fuel (s.enter params)
      match s.afterAnnotation fuel behind with
      | body :: beyond =>
        if body.isGroup '\x7b' then
          let parts := parts ++ read s fuel ⟨true, false, none⟩ (s.enter body)
          (if yields then other parts
            else function ((if isDeclared then [s.name .function name] else []) ++ parts)) ::
            read s fuel ⟨isDeclared, place.declares, some body⟩ beyond
        else parts ++ read s fuel ⟨true, false, none⟩ (body :: beyond)
      | [] => parts

/-- The constructs from a class on, behind the word for it; `make` makes
the construct of a class that is declared. -/
def readClass (s : Script) :
    (fuel : Nat) → Place → (make : List Outline → Outline) → List Piece → List Outline
  | 0, _, _, _ => []
  | fuel + 1, place, make, ps =>
    let name := (ps.take 1).filter fun p =>
      p.word?.isSome && !p.isAnyWord ["extends", "implements"]
    let isDeclared := place.start && name ≠ []
    let (heritage, beyond) := Piece.splitAt (·.isGroup '\x7b') (ps.drop name.length)
    match beyond with
    | [] => []
    | body :: beyond =>
      let parts := read s fuel ⟨false, false, none⟩ heritage ++ members s fuel true (s.enter body)
      (if isDeclared then make (s.name .type name :: parts) else other parts) ::
        read s fuel ⟨isDeclared, place.declares, some body⟩ beyond

/-- The constructs from an enum on, behind the word for it. -/
def readEnum (s : Script) : (fuel : Nat) → List Piece → List Outline
  | 0, _ => []
  | _, [] => []
  | fuel + 1, name :: rest =>
    type (s.name .enum [name] :: members s fuel false ((rest.take 1).flatMap s.enter)) ::
      read s fuel ⟨true, false, none⟩ (rest.drop 1)

/-- The constructs of the head of a loop. What a loop takes from the values
of something is no declaration of its own. -/
def header (s : Script) : (fuel : Nat) → List Piece → List Outline
  | 0, _ => []
  | fuel + 1, ps =>
    match ps with
    | _ :: _ :: sign :: rest =>
      if sign.isAnyWord ["of", "in"] then read s fuel ⟨false, false, none⟩ rest
      else read s fuel ⟨true, false, none⟩ ps
    | _ => read s fuel ⟨true, false, none⟩ ps

/-- The constructs from a declared variable on. -/
def declarators (s : Script) : (fuel : Nat) → List Piece → List Outline
  | 0, _ => []
  | _, [] => []
  | fuel + 1, p :: rest =>
    let behind := s.afterAnnotation fuel (rest.dropWhile fun q => s.typed && q.isMark "!")
    let parts :=
      if p.word?.isSome then [s.name .variable [p]]
      else if p.isGroup '\x7b' then members s fuel false (s.enter p)
      else read s fuel ⟨false, false, none⟩ (s.enter p)
    parts ++ read s fuel ⟨false, true, some p⟩ behind

/-- The constructs of parameters: what they are by default. -/
def parameters (s : Script) : (fuel : Nat) → List Piece → List Outline
  | 0, _ => []
  | fuel + 1, ps =>
    match ps with
    | [] => []
    | p :: rest =>
      if s.typed && p.isMark ":" then parameters s fuel (afterType fuel rest)
      else
        match p with
        | .group .. => read s fuel ⟨false, false, none⟩ [p] ++ parameters s fuel rest
        | .token _ =>
          if p.isMark "=" then
            let (value, beyond) := Piece.splitAt (·.isMark ",") rest
            read s fuel ⟨false, false, none⟩ value ++ parameters s fuel beyond
          else parameters s fuel rest

/-- The constructs of the members of a class or an object. -/
def members (s : Script) : (fuel : Nat) → (ofClass : Bool) → List Piece → List Outline
  | 0, _, _ => []
  | _, _, [] => []
  | fuel + 1, ofClass, p :: rest =>
    let value (ps : List Piece) : List Outline :=
      let (mine, after) := memberValue none ps
      read s fuel ⟨false, false, none⟩ mine ++ members s fuel ofClass after
    if p.isMark ";" || p.isMark "," then members s fuel ofClass rest
    else if p.isMark "..." then value rest
    else if p.isMark "@" then
      let (arguments, after) := decorator rest
      read s fuel ⟨false, false, none⟩ arguments ++ members s fuel ofClass after
    else if p.isWord "static" && rest.head?.any (·.isGroup '\x7b') then
      read s fuel ⟨true, false, none⟩ (rest.take 1) ++ members s fuel ofClass (rest.drop 1)
    else if leadsMember p rest then members s fuel ofClass rest
    else
      let isPrivate := p.isMark "#"
      let name := if isPrivate then p :: rest.take 1 else [p]
      let behind := if isPrivate then rest.drop 1 else rest
      let parts :=
        if p.isGroup '[' then read s fuel ⟨false, false, none⟩ (s.enter p) else []
      match behind.dropWhile fun q => s.typed && (q.isMark "?" || q.isMark "!") with
      | [] => parts
      | g :: after =>
        if g.isGroup '(' then
          let parts := parts ++ parameters s fuel (s.enter g)
          match s.afterAnnotation fuel after with
          | body :: beyond =>
            if body.isGroup '\x7b' then
              function (s.name .function name ::
                (parts ++ read s fuel ⟨true, false, none⟩ (s.enter body))) ::
                members s fuel ofClass beyond
            else parts ++ members s fuel ofClass (body :: beyond)
          | [] => parts
        else if g.isMark "=" || (g.isMark ":" && !ofClass) then parts ++ value after
        else if g.isMark ":" then
          match afterType fuel after with
          | q :: given => if q.isMark "=" then parts ++ value given
            else parts ++ members s fuel ofClass (q :: given)
          | [] => parts
        else parts ++ members s fuel ofClass (g :: after)

/-- The constructs of the code in some text or markup. -/
def embedded (s : Script) : (fuel : Nat) → List Piece → List Outline
  | 0, _ => []
  | _, [] => []
  | fuel + 1, p :: rest =>
    (if p.isGroup '<' then embedded s fuel p.inside
      else read s fuel ⟨false, false, none⟩ (s.enter p)) ++ embedded s fuel rest
end

/-- The constructs of a file. -/
def readAll (s : Script) (fuel : Nat) (ps : List Piece) : List Outline :=
  read s fuel ⟨true, false, none⟩ (if s.typed then withoutArguments 0 none ps else ps)

end Outline.Scripts

end SourceDigest
