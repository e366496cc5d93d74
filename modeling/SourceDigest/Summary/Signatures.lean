/-
Signatures: the headers of functions and types, with their bodies left
out.

A header may go on over six lines. Where bodies stand in braces it ends
at the first `{`, and the body is elided, or at the first `;`. A Python
header ends at the colon that stands outside brackets, quotes and
comments. In other languages the line that starts the header is all of
it. Lines that belong to a header start no other one; a header without
an end is none.
-/
import SourceDigest.Declaration

namespace SourceDigest

open Pattern DeclarationRules

namespace Signature

-- ================================================================ beginnings

def rustStart : Pattern :=
  indent ++ visibility ++
    many ((words ["const", "async", "unsafe"]
      <|> spaced "extern" ++ "\"" ++ many (noneOf "\"") ++ "\"") ++ space) ++
    words ["fn", "struct", "enum", "trait", "impl", "union", "mod"] ++ wordEdge

def pythonStart : Pattern :=
  indent ++ maybe "async" ++ words ["def", "class"] ++ space ++ nameStart

def scriptStart : Pattern :=
  indent ++ maybe "export" ++ maybe "default" ++ maybe "declare" ++ maybe "abstract" ++
    maybe "async" ++
    ("function" ++ wordEdge <|> words ["class", "interface", "enum"] ++ blank)

def goStart : Pattern := indent ++ words ["func", "type"] ++ blank

def bracedTypeStart : Pattern :=
  indent ++ opt ("template" ++ gap ++ "<" ++ many (noneOf ">") ++ ">" ++ gap) ++
    modifiers ["public", "private", "protected", "internal", "abstract", "final", "static",
      "sealed", "partial", "open", "data", "export"] ++
    words ["class", "struct", "interface", "enum", "namespace", "record", "trait", "object"] ++
    space ++ nameStart

/-- A function after its return type; part 1 is its name. -/
def bracedFunctionStart : Pattern :=
  indent ++ many1 (nameStart ++ many (wordOr ":<>,[]") ++
      many1 (char fun c => Text.isBlank c || c == '*' || c == '&')) ++
    many (ofText "*") ++ opt (ofText "&") ++
    part 1 (identifier ++
      many ("::" ++ char (fun c => c.isAlpha || c == '_' || c == '~') ++ many word)) ++
    gap ++ "(" ++ many (noneOf ";") ++ atEnd

/-- A function after a word for functions. -/
def keywordFunctionStart : Pattern :=
  indent ++ modifiers ["public", "private", "protected", "internal", "static", "abstract",
      "final", "override", "suspend", "open", "mutating"] ++
    words ["fun", "func", "function", "def"] ++ space ++ nameStart

def generalStart : Pattern :=
  indent ++ maybe "local" ++ words ["def", "class", "module", "function", "fn", "func", "sub"] ++
    space ++ nameStart

/-- Whether a line starts a header. -/
def startsAt (language : Language) (line : Text) : Bool :=
  match language with
  | .rust => rustStart.isIn line
  | .python => pythonStart.isIn line
  | .javaScript | .typeScript => scriptStart.isIn line
  | .go => goStart.isIn line
  | .c | .cpp | .java | .kotlin | .scala | .cSharp | .swift | .php =>
    bracedTypeStart.isIn line || keywordFunctionStart.isIn line ||
      (bracedFunctionStart.capture? 1 line).any fun name => !isKeyword name
  | .ruby | .shell | .lua | .unknown => generalStart.isIn line

-- ====================================================================== ends

/-- The code of one line of a Python header. -/
structure HeaderLine where
  /-- The code before the closing colon or the comment. -/
  code : Text
  /-- Whether the closing colon is on the line. -/
  closed : Bool
  /-- How many brackets are open behind it. -/
  depth : Nat

/-- Reads a line of a Python header, given how many brackets are open and
which quote is, if any. -/
def headerLine (depth : Nat) : (quote : Option Char) → (escaped : Bool) → Text → HeaderLine
  | _, _, [] => ⟨[], false, depth⟩
  | some q, escaped, c :: rest =>
    let r :=
      if escaped then headerLine depth (some q) false rest
      else if c = '\\' then headerLine depth (some q) true rest
      else if c = q then headerLine depth none false rest
      else headerLine depth (some q) false rest
    { r with code := c :: r.code }
  | none, _, c :: rest =>
    if c = '#' then ⟨[], false, depth⟩
    else if c = ':' ∧ depth = 0 then ⟨[], true, depth⟩
    else
      let r :=
        if c = '\x27' ∨ c = '"' then headerLine depth (some c) false rest
        else if c = '(' ∨ c = '[' ∨ c = '\x7b' then headerLine (depth + 1) none false rest
        else if c = ')' ∨ c = ']' ∨ c = '\x7d' then headerLine (depth - 1) none false rest
        else headerLine depth none false rest
      { r with code := c :: r.code }

/-- The most lines a header may take. -/
def maxLines : Nat := 6

/-- A part of a header, unless it is empty. -/
def addPart (parts : List Text) (part : Text) : List Text :=
  if part = [] then parts else parts ++ [part]

/-- A Python header and how many lines it takes, read on after some parts
and lines of it. -/
def captureIndented (parts : List Text) (taken depth : Nat) : List Text → Option (Text × Nat)
  | [] => none
  | line :: rest =>
    let h := headerLine depth none false line
    if h.closed then
      some (Text.join " " (parts ++ [Text.trim h.code]) ++ ": ...", taken + 1)
    else captureIndented (addPart parts (Text.trim h.code)) (taken + 1) h.depth rest

/-- A header before braces and how many lines it takes, read on after some
parts and lines of it. -/
def captureBraced (parts : List Text) (taken : Nat) : List Text → Option (Text × Nat)
  | [] => none
  | line :: rest =>
    if line.contains '\x7b' then
      some (Text.join " " (addPart parts (Text.trim (Text.before '\x7b' line))) ++
        " \x7b ... \x7d", taken + 1)
    else if line.contains ';' then
      some (Text.join " " (parts ++ [Text.trim (Text.before ';' line ++ ";")]), taken + 1)
    else captureBraced (parts ++ [Text.trim line]) (taken + 1) rest

/-- The header that starts on the first of some lines, and how many lines
it takes. -/
def capture (language : Language) (lines : List Text) : Option (Text × Nat) :=
  if language = .python then captureIndented [] 0 0 (lines.take maxLines)
  else if language.usesBraces then captureBraced [] 0 (lines.take maxLines)
  else lines.head?.map fun line => (Text.trim line, 1)

-- ================================================================ all headers

/-- The headers of some lines, the first `skip` of which belong to a header
before. -/
def collect (language : Language) : (skip : Nat) → List Text → List Text
  | _, [] => []
  | skip + 1, _ :: rest => collect language skip rest
  | 0, line :: rest =>
    if startsAt language line then
      match capture language (line :: rest) with
      | some (signature, taken) => signature :: collect language (taken - 1) rest
      | none => collect language 0 rest
    else collect language 0 rest

/-- The signatures of a source text, in order. -/
def all (language : Language) (content : Text) : List Text :=
  collect language 0 (Text.lines content)

end Signature

end SourceDigest
