/-
Tokens of source text, and the pieces that brackets group them into.

A token is a word, a number, literal text, a mark, or one side of a
bracket; comments and blanks yield none. Which characters form which is
up to the conventions of a grammar. A token knows where it starts and,
when it is the first on its line, how far it is indented.

# Text with code in it

Interpolated strings and markup hold code in braces. The reader keeps a
stack of what it is inside of: code in braces goes on until its closing
brace and then gives way to the text around it. Such a string or markup
element becomes a bracket of its own, with the braces inside it.

# Pieces

A piece is a token or a bracketed group of pieces. A bracket that is
never closed closes at the end; one that was never opened is dropped.
-/
import SourceDigest.Text.Word

namespace SourceDigest

/-- What a token is. -/
inductive TokenShape where
  | word
  | number
  /-- A string, a character, or other text that stands for itself. -/
  | text
  | mark
  /-- The path of a file that is to be included. -/
  | included
  | opens
  | closes
deriving DecidableEq, Repr

/-- A token of a source text. -/
structure Token where
  shape : TokenShape
  text : Text
  /-- How many characters stand before it. -/
  start : Nat
  /-- Its column, when it is the first token on its line. -/
  indent : Option Nat
deriving Repr

namespace Token

/-- How many characters stand before its end. -/
def stop (t : Token) : Nat := t.start + t.text.length

end Token

-- =============================================================== conventions

/-- Text with code in braces. -/
structure Interpolated where
  /-- What ends the text. -/
  closing : Text
  /-- What opens a piece of code. -/
  opening : Text
  /-- Whether a doubled brace is a plain one. -/
  doubled : Bool
  /-- Whether a backslash guards the next character. -/
  escapes : Bool
  /-- Whether a colon ends a piece of code and a format follows. -/
  formats : Bool

/-- What the reader is inside of. -/
inductive Inside where
  /-- Code in braces, with so many other brackets open in it. -/
  | braces (others : Nat)
  | interpolated (q : Interpolated)
  /-- The format behind a piece of code, up to the closing brace. -/
  | format
  /-- The opening tag of a markup element. -/
  | tag
  /-- A markup element after its opening tag. -/
  | element

namespace Inside

/-- Counts the brackets other than braces in the innermost braces. -/
def count (change : Nat → Nat) : List Inside → List Inside
  | braces others :: outer => braces (change others) :: outer
  | inside => inside

/-- Whether a colon here ends a piece of code. -/
def endsAtColon : List Inside → Bool
  | braces 0 :: interpolated q :: _ => q.formats
  | braces 0 :: format :: _ => true
  | _ => false

/-- What is around the innermost braces. -/
def leaveBraces : List Inside → List Inside
  | braces _ :: outer => outer
  | inside => inside

end Inside

/-- How a grammar forms tokens. Each rule looks at the text from a place
on and answers with a number of characters. -/
structure Conventions where
  /-- The length of the comment that starts here. -/
  comment? : Text → Option Nat
  /-- The literal that starts here, given the token before. -/
  literal? : Option Token → Text → Option (TokenShape × Nat)
  /-- The interpolated text that starts here. -/
  interpolated? : Text → Option (Interpolated × Nat)
  /-- Whether a markup element starts here, given the token before. -/
  opensMarkup : Option Token → Text → Bool
  /-- Marks of more than one character, longer ones first. -/
  marks : List Text
  /-- Characters that words may start with. -/
  startsWord : Char → Bool
  /-- Characters that words go on with. -/
  inWord : Char → Bool

namespace Conventions

/-- Conventions without literals, markup and long marks. -/
def plain : Conventions where
  comment? := fun _ => none
  literal? := fun _ _ => none
  interpolated? := fun _ => none
  opensMarkup := fun _ _ => false
  marks := []
  startsWord := fun c => Text.isWord c && !Text.isDigit c
  inWord := Text.isWord

end Conventions

-- =================================================================== measures

namespace Text

/-- The number of characters up to the end of the line. -/
def lineLength (t : Text) : Nat := (t.takeWhile (· ≠ '\n')).length

/-- The number of characters up to and with `closing`; all of them when it
is missing. -/
def lengthThrough (closing : Text) (t : Text) : Nat :=
  match cut? closing t with
  | some (before, _) => before.length + closing.length
  | none => t.length

/-- The number of characters up to and with an unguarded quote, a backslash
guarding the character after it; all of them when it is missing. -/
def quotedLength (quote : Char) : Text → Nat
  | [] => 0
  | '\\' :: _ :: rest => 2 + quotedLength quote rest
  | c :: rest => if c = quote then 1 else 1 + quotedLength quote rest

/-- The number of characters of a comment whose kind may be nested in it,
given how many are open. -/
def nestedLength (opening closing : Char × Char) : (depth : Nat) → Text → Nat
  | 0, _ => 0
  | _, [] => 0
  | _, [_] => 1
  | depth + 1, a :: b :: rest =>
    if (a, b) = closing then
      if depth = 0 then 2 else 2 + nestedLength opening closing depth rest
    else if (a, b) = opening then 2 + nestedLength opening closing (depth + 2) rest
    else 1 + nestedLength opening closing (depth + 1) (b :: rest)

/-- The number of digits, letters and inner points of a number. -/
def numberLength : Text → Nat
  | [] => 0
  | '.' :: d :: rest => if d.isDigit then 2 + numberLength rest else 0
  | c :: rest => if Text.isWord c then 1 + numberLength rest else 0

end Text

-- ==================================================================== reading

/-- Where the reader is. -/
structure Reader where
  /-- How many characters of the token before are still to be passed. -/
  skip : Nat := 0
  position : Nat := 0
  column : Nat := 0
  /-- Whether no token has been met on the line. -/
  fresh : Bool := true
  before : Option Token := none
  inside : List Inside := []

namespace Reader

/-- The reader after one character. -/
def pass (r : Reader) (c : Char) : Reader :=
  { r with
    skip := r.skip - 1
    position := r.position + 1
    column := if c = '\n' then 0 else r.column + 1 }

/-- The token of `n` characters that starts here. -/
def token (r : Reader) (shape : TokenShape) (n : Nat) (t : Text) : Token :=
  ⟨shape, t.take n, r.position, if r.fresh then some r.column else none⟩

/-- Reports a token of `n` characters. -/
def emit (r : Reader) (shape : TokenShape) (n : Nat) (t : Text) (inside : List Inside) :
    List Token × Reader :=
  let made := r.token shape n t
  ([made], { r with skip := n, fresh := false, before := some made, inside })

/-- Passes `n` characters; a line that they end makes the next token the
first on its line. -/
def ignore (r : Reader) (n : Nat) (t : Text) : List Token × Reader :=
  let passed := t.take n
  let isNewLine := passed.contains '\n' && passed.head? != some '\\'
  ([], { r with skip := n, fresh := r.fresh || isNewLine })

/-- One step in code. -/
def stepCode (cv : Conventions) (r : Reader) (c : Char) (t : Text) : List Token × Reader :=
  if c = '\n' then ([], { r with skip := 1, fresh := true })
  else if Text.isBlank c then ([], { r with skip := 1 })
  else
    match cv.comment? t with
    | some n => r.ignore n t
    | none =>
      match cv.interpolated? t with
      | some (q, n) => r.emit .opens n t (.interpolated q :: r.inside)
      | none =>
        match cv.literal? r.before t with
        | some (shape, n) => r.emit shape n t r.inside
        | none =>
          if cv.opensMarkup r.before t then r.emit .opens 1 t (.tag :: r.inside)
          else if c = '\x7b' then r.emit .opens 1 t (.braces 0 :: r.inside)
          else if c = '(' ∨ c = '[' then r.emit .opens 1 t (Inside.count (· + 1) r.inside)
          else if c = '\x7d' then r.emit .closes 1 t (Inside.leaveBraces r.inside)
          else if c = ')' ∨ c = ']' then r.emit .closes 1 t (Inside.count (· - 1) r.inside)
          else if c = ':' ∧ Inside.endsAtColon r.inside then
            ([], { r with skip := 1, inside := .format :: r.inside })
          else if cv.startsWord c then r.emit .word (t.takeWhile cv.inWord).length t r.inside
          else if Text.isDigit c then r.emit .number (max 1 (Text.numberLength t)) t r.inside
          else
            match cv.marks.find? (Text.startsWith t) with
            | some m => r.emit .mark m.length t r.inside
            | none => r.emit .mark 1 t r.inside

/-- One step in interpolated text, inside of `outer`. -/
def stepInterpolated (q : Interpolated) (outer : List Inside) (r : Reader) (c : Char) (t : Text) :
    List Token × Reader :=
  if q.escapes ∧ c = '\\' then ([], { r with skip := 2 })
  else if Text.startsWith t q.closing then r.emit .closes q.closing.length t outer
  else if q.doubled ∧ Text.startsWith t "\x7b\x7b" then ([], { r with skip := 2 })
  else if Text.startsWith t q.opening then
    r.emit .opens q.opening.length t (.braces 0 :: r.inside)
  else ([], { r with skip := 1 })

/-- One step in a format, inside of `outer`. -/
def stepFormat (outer : List Inside) (r : Reader) (c : Char) (t : Text) : List Token × Reader :=
  if c = '\x7b' then r.emit .opens 1 t (.braces 0 :: r.inside)
  else if c = '\x7d' then r.emit .closes 1 t (Inside.leaveBraces outer)
  else ([], { r with skip := 1 })

/-- One step in an opening tag, inside of `outer`. -/
def stepTag (outer : List Inside) (r : Reader) (c : Char) (t : Text) : List Token × Reader :=
  if c = '\x7b' then r.emit .opens 1 t (.braces 0 :: r.inside)
  else if Text.startsWith t "/>" then r.emit .closes 2 t outer
  else if c = '>' then ([], { r with skip := 1, inside := .element :: outer })
  else if c = '"' ∨ c = '\x27' then
    r.ignore (1 + Text.lengthThrough [c] (t.drop 1)) t
  else ([], { r with skip := 1 })

/-- One step in a markup element, inside of `outer`. -/
def stepElement (outer : List Inside) (r : Reader) (c : Char) (t : Text) : List Token × Reader :=
  if c = '\x7b' then r.emit .opens 1 t (.braces 0 :: r.inside)
  else if Text.startsWith t "</" then r.emit .closes (Text.lengthThrough ">" t) t outer
  else if c = '<' then r.emit .opens 1 t (.tag :: r.inside)
  else ([], { r with skip := 1 })

/-- One step: the tokens that start here, and how far to go on. -/
def step (cv : Conventions) (r : Reader) (c : Char) (t : Text) : List Token × Reader :=
  match r.inside with
  | .interpolated q :: outer => r.stepInterpolated q outer c t
  | .format :: outer => r.stepFormat outer c t
  | .tag :: outer => r.stepTag outer c t
  | .element :: outer => r.stepElement outer c t
  | .braces _ :: _ | [] => r.stepCode cv c t

/-- The tokens from a place on. -/
def read (cv : Conventions) : Reader → Text → List Token
  | _, [] => []
  | r, c :: rest =>
    if r.skip = 0 then
      let (tokens, r) := r.step cv c (c :: rest)
      tokens ++ read cv (r.pass c) rest
    else read cv (r.pass c) rest

end Reader

/-- The tokens of a source text. -/
def Token.all (cv : Conventions) (source : Text) : List Token := Reader.read cv {} source

-- ===================================================================== pieces

/-- A token, or a group of pieces between an opening and a closing
bracket. -/
inductive Piece where
  | token (t : Token)
  | group (opening : Token) (inside : List Piece) (stop : Nat)

namespace Piece

/-- A bracket that is still open and the pieces before it, the last
first. -/
structure Pending where
  opening : Token
  before : List Piece

/-- Groups tokens, given the open brackets and the pieces of the innermost
one so far, the last first. -/
def gather : List Pending → List Piece → List Token → List Piece
  | pending, pieces, [] =>
    (pending.foldl (fun inner p =>
      .group p.opening inner.reverse (inner.head?.elim p.opening.stop stopOf) :: p.before)
      pieces).reverse
  | pending, pieces, t :: rest =>
    match t.shape, pending with
    | .opens, _ => gather (⟨t, pieces⟩ :: pending) [] rest
    | .closes, p :: outer => gather outer (.group p.opening pieces.reverse t.stop :: p.before) rest
    | .closes, [] => gather [] pieces rest
    | _, _ => gather pending (.token t :: pieces) rest
where
  stopOf : Piece → Nat
    | .token t => t.stop
    | .group _ _ stop => stop

/-- The pieces of a source text. -/
def all (cv : Conventions) (source : Text) : List Piece := gather [] [] (Token.all cv source)

/-- The token that a piece starts with. -/
def first : Piece → Token
  | token t => t
  | group opening _ _ => opening

def start (p : Piece) : Nat := p.first.start

/-- How many characters stand before the end of a piece. -/
def stop : Piece → Nat
  | token t => t.stop
  | group _ _ stop => stop

/-- Whether the piece is the first on its line. -/
def isFresh (p : Piece) : Bool := p.first.indent.isSome

/-- The word that a piece is. -/
def word? : Piece → Option Text
  | token t => if t.shape = .word then some t.text else none
  | group .. => none

/-- Whether a piece is a given word. -/
def isWord (w : String) : Piece → Bool
  | token t => t.shape = .word && t.text == w.toList
  | group .. => false

/-- Whether a piece is one of some words. -/
def isAnyWord (ws : List String) : Piece → Bool
  | token t => t.shape = .word && ws.any fun w => t.text == w.toList
  | group .. => false

/-- Whether a piece is a given mark. -/
def isMark (m : String) : Piece → Bool
  | token t => t.shape = .mark && t.text == m.toList
  | group .. => false

/-- Whether a piece is literal text. -/
def isText : Piece → Bool
  | token t => t.shape = .text
  | group .. => false

/-- Whether a piece is a group behind a given bracket. -/
def isGroup (opening : Char) : Piece → Bool
  | token _ => false
  | group o _ _ => o.text.getLast? == some opening

/-- The pieces inside a group. -/
def inside : Piece → List Piece
  | token _ => []
  | group _ inside _ => inside

/-- The source text of some pieces, from the first to the last. -/
def source (text : Text) (ps : List Piece) : Text :=
  match ps.head?, ps.getLast? with
  | some a, some b => (text.drop a.start).take (b.stop - a.start)
  | _, _ => []

/-- The pieces before the first that satisfies a test, and the rest from
there. -/
def splitAt (p : Piece → Bool) (ps : List Piece) : List Piece × List Piece :=
  (ps.takeWhile fun q => !p q, ps.dropWhile fun q => !p q)

/-- The runs of pieces between those that satisfy a test. -/
def runs (p : Piece → Bool) : List Piece → List (List Piece)
  | [] => [[]]
  | q :: rest =>
    match runs p rest with
    | [] => [[q]]
    | run :: more => if p q then [] :: run :: more else (q :: run) :: more

end Piece

end SourceDigest
