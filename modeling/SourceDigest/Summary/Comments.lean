/-
The comments of a source text.

Line comments on consecutive lines join into one comment. A block comment
or documentation string counts when a line begins with it; each of its
lines is trimmed, a block comment's leading stars go, and empty lines are
dropped. A first line that starts with `#!` is no comment. At most a
given number of comments is collected, and reading stops there.
-/
import SourceDigest.Lines.Stats

namespace SourceDigest

namespace Comment

/-- A block that is being read. -/
structure Block where
  /-- What ends it. -/
  closing : Text
  /-- Whether stars at the start of its lines are decoration. -/
  starred : Bool
  /-- Its lines so far. -/
  body : List Text

/-- One line of a block without blanks and decoration. -/
def Block.cleanLine (starred : Bool) (line : Text) : Text :=
  if starred then Text.trim ((Text.trim line).dropWhile (· == '*')) else Text.trim line

/-- The comment that a block amounts to. -/
def Block.text (b : Block) : Text :=
  Text.join "\n" ((b.body.map (Block.cleanLine b.starred)).filter (· ≠ []))

/-- The block that a trimmed line begins with and the rest of the line. -/
def Block.opened? (marks : CommentSyntax) (trimmed : Text) : Option (Block × Text) :=
  let byMarks := marks.block.bind fun (opening, closing) =>
    (Text.dropLead? opening trimmed).map fun rest => (⟨closing, true, []⟩, rest)
  let byQuote :=
    if marks.docstrings then
      LineClass.tripleQuotes.findSome? fun quote =>
        (Text.dropLead? quote trimmed).map fun rest => (⟨quote, false, []⟩, rest)
    else none
  byMarks.or byQuote

/-- The words of a line comment without its marks. -/
def lineBody? (marks : CommentSyntax) (trimmed : Text) : Option Text :=
  (marks.line.findSome? fun mark => Text.dropLead? mark trimmed).map fun rest =>
    Text.trim (rest.dropWhile fun c => ['/', '!', '#', '-'].contains c)

/-- Whether a trimmed line begins with the mark of a block comment. -/
def opensMarked (marks : CommentSyntax) (trimmed : Text) : Bool :=
  marks.block.any fun pair => Text.startsWith trimmed pair.1

/-- A comment put in front of others, if it says anything. -/
def cons (comment : Text) (more : List Text) : List Text :=
  if comment = [] then more else comment :: more

/-- How many more comments fit after one. -/
def roomAfter (room : Nat) (comment : Text) : Nat := if comment = [] then room else room - 1

/-- The comment that some line comments join into. -/
def joined (group : List Text) : Text := Text.trim (Text.join "\n" group)

/-- Takes in a line of a block: the block goes on, or ends with a comment. -/
def Block.add (b : Block) (line : Text) : Block × Bool :=
  match Text.cut? b.closing line with
  | some (before, _) => ({ b with body := b.body ++ [before] }, true)
  | none => ({ b with body := b.body ++ [line] }, false)

/-- The comments of some lines, as many as there is room for, given the
line comments just before them and the block they start in. -/
def collect (marks : CommentSyntax) :
    (room : Nat) → (group : List Text) → Option Block → List Text → List Text
  | room, group, none, [] => if room = 0 then [] else cons (joined group) []
  | _, _, some b, [] => cons b.text []
  | room, group, some b, line :: rest =>
    let (b, ended) := b.add line
    if ended then cons b.text (collect marks (roomAfter room b.text) group none rest)
    else collect marks room group (some b) rest
  | room, group, none, line :: rest =>
    let trimmed := Text.trim line
    if room = 0 then []
    else
      match if opensMarked marks trimmed then none else lineBody? marks trimmed with
      | some body => collect marks room (group ++ [body]) none rest
      | none =>
        let comment := joined group
        let room := roomAfter room comment
        cons comment <|
          if room = 0 then []
          else
            match Block.opened? marks trimmed with
            | none => collect marks room [] none rest
            | some (b, tail) =>
              let (b, ended) := b.add tail
              if ended then cons b.text (collect marks (roomAfter room b.text) [] none rest)
              else collect marks room [] (some b) rest

/-- The lines of a text without an interpreter line in front. -/
def readable (content : Text) : List Text :=
  match Text.lines content with
  | first :: rest => if Text.startsWith (Text.trim first) "#!" then rest else first :: rest
  | [] => []

/-- The comments of a text in order, at most `max` of them. -/
def extract (language : Language) (content : Text) (max : Nat) : List Text :=
  collect language.comments max [] none (readable content)

end Comment

end SourceDigest
