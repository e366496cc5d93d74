/-
Imports written in a source text, in order and without repetitions.

The scan goes line by line, so it works on texts that no parser accepts.
For each line it reports the imports found there; what may span lines is
carried along as the open statement.

# What is reported

- Scripts: the module specifier of an import or export, of a `require`
  and of an import call.
- Python: the module of a `from` import, then `module.name` for every
  name taken from it; the modules of a plain import.
- Rust: the path of a `use`, then `path::name` for every name of its brace
  group; `mod name` for a module declared in another file.
- Everything else: what the import line of the language names.
-/
import SourceDigest.Declaration

namespace SourceDigest

open Pattern DeclarationRules

/-- Runs over lines with a state and gathers what each line reports. -/
def scanLines {σ : Type} (step : σ → Text → List Text × σ) : σ → List Text → List Text
  | _, [] => []
  | s, line :: rest => (step s line).1 ++ scanLines step (step s line).2 rest

namespace Imports

-- ========================================================== lists of names

/-- What surrounds a list of names. -/
def isListMark (c : Char) : Bool := "()\x7b\x7d;".toList.contains c

/-- What stands before the first ` as `, or all of it. -/
def dropAlias (t : Text) : Text :=
  match Text.cut? " as " t with
  | some (name, _) => name
  | none => t

/-- The name in one piece of a list, without list marks and alias. -/
def nameIn? (piece : Text) : Option Text :=
  let name := Text.trim (dropAlias (Text.trimOf isListMark (Text.trim piece)))
  if name = [] ∨ name = ['*'] ∨ name = ("self" : Text) then none else some name

/-- The names in a list separated by commas. -/
def namesIn (body : Text) : List Text := (Text.splitOn ',' body).filterMap nameIn?

-- ================================================================== scripts

/-- `import ... from "x"` and `export ... from "x"`. -/
def scriptFrom : Pattern :=
  indent ++ words ["import", "export"] ++ wordEdge ++ fewest (noneOf "'\"") ++ wordEdge ++
    "from" ++ gap ++ quotedPart

/-- `import "x"`. -/
def scriptBare : Pattern := indent ++ "import" ++ gap ++ quotedPart

/-- `require("x")` and `import("x")`. -/
def scriptCall : Pattern :=
  wordEdge ++ words ["require", "import"] ++ gap ++ "(" ++ gap ++ quotedPart ++ gap ++ ")"

/-- A brace group that the line does not close. -/
def scriptBlockStart : Pattern :=
  indent ++ words ["import", "export"] ++ space ++ maybe "type" ++ "\x7b" ++
    many (noneOf "\x7d") ++ atEnd

/-- The end of a brace group with its source. -/
def scriptBlockEnd : Pattern := "\x7d" ++ gap ++ "from" ++ gap ++ quotedPart

/-- One line of a script; the state tells whether a brace group is open. -/
def scriptLine (inBlock : Bool) (line : Text) : List Text × Bool :=
  if inBlock then
    match scriptBlockEnd.capture? 1 line with
    | some source => ([source], false)
    | none => ([], !line.contains ';')
  else
    match (scriptFrom.capture? 1 line).or (scriptBare.capture? 1 line) with
    | some source => ([source], false)
    | none =>
      if scriptBlockStart.isIn line then ([], true)
      else ((scriptCall.findAll line).filterMap (·.part? 1), false)

-- ==================================================== dotted module imports

/-- `import a, b`. -/
def moduleImport : Pattern := indent ++ spaced "import" ++ part 1 (many1 any) ++ atEnd

/-- `from a import b`. -/
def moduleFrom : Pattern :=
  indent ++ spaced "from" ++ part 1 (many1 (char fun c => !Text.isBlank c)) ++ space ++
    spaced "import" ++ part 2 (many any) ++ atEnd

/-- A name inside a module. -/
def dotted (module_ name : Text) : Text :=
  if module_.getLast? == some '.' then module_ ++ name else module_ ++ '.' :: name

/-- How an import that goes on over the next line will end. -/
inductive Continuation where
  /-- At a closing parenthesis. -/
  | parenthesis
  /-- At a line without a backslash behind. -/
  | backslash
deriving DecidableEq, Repr

/-- A line without its comment and the blanks before that. -/
def withoutRemark (line : Text) : Text := Text.trimEnd (Text.before '#' line)

/-- A text without backslashes at its end. -/
def withoutBackslashes (t : Text) : Text := Text.trimEndOf (· == '\\') t

/-- The list of names that starts on the line of a `from` import, and how
it goes on if it does. -/
def listStart (names : Text) : Text × Option Continuation :=
  match names with
  | '(' :: rest =>
    if rest.contains ')' then (Text.before ')' rest, none) else (rest, some .parenthesis)
  | _ =>
    if names.getLast? == some '\\' then (withoutBackslashes names, some .backslash)
    else (names, none)

/-- The list of names on a further line, and whether it ends there. -/
def listMore (how : Continuation) (code : Text) : Text × Bool :=
  match how with
  | .parenthesis => (Text.before ')' code, code.contains ')')
  | .backslash => (withoutBackslashes code, code.getLast? != some '\\')

/-- One line of Python; the state holds the module of an open import. -/
def pythonLine (open_ : Option (Text × Continuation)) (line : Text) :
    List Text × Option (Text × Continuation) :=
  let code := withoutRemark line
  match open_ with
  | some (module_, how) =>
    ((namesIn (listMore how code).1).map (dotted module_),
      if (listMore how code).2 then none else some (module_, how))
  | none =>
    match moduleFrom.find? code with
    | some m =>
      let module_ := (m.part? 1).getD []
      let names := listStart (Text.trim ((m.part? 2).getD []))
      (module_ :: (namesIn names.1).map (dotted module_), names.2.map fun how => (module_, how))
    | none =>
      match moduleImport.capture? 1 code with
      | some list => (namesIn list, none)
      | none => ([], none)

-- ================================================================ use trees

/-- `use path`, with the rest of a brace group as part 2. -/
def usePath : Pattern :=
  indent ++ visibility ++ spaced "use" ++ part 1 (wordOr ":" ++ fewest (wordOr ":")) ++
    ("::\x7b" ++ part 2 (many any) <|> gap ++ ";" <|> space ++ "as" ++ blank)

/-- `mod name;`. -/
def moduleDeclaration : Pattern :=
  indent ++ visibility ++ spaced "mod" ++ part 1 (many1 word) ++ gap ++ ";"

/-- The names of a group below a path. -/
def below (path body : Text) : List Text :=
  (namesIn (Text.before '\x7d' body)).map fun name => path ++ "::" ++ name

/-- One line of Rust; the state holds the path of an open brace group. -/
def rustLine (open_ : Option Text) (line : Text) : List Text × Option Text :=
  match open_ with
  | some path => (below path line, if line.contains '\x7d' then none else some path)
  | none =>
    match moduleDeclaration.capture? 1 line with
    | some name => ([("mod " : Text) ++ name], none)
    | none =>
      match usePath.find? line with
      | none => ([], none)
      | some m =>
        let path := (m.part? 1).getD []
        match m.part? 2 with
        | none => ([path], none)
        | some group =>
          (path :: below path group, if group.contains '\x7d' then none else some path)

-- =============================================== import blocks in parentheses

/-- One line of Go; the state tells whether an import block is open. -/
def goLine (inBlock : Bool) (line : Text) : List Text × Bool :=
  if inBlock then
    if (Text.trimStart line).head? == some ')' then ([], false)
    else (((indent ++ goEntry).capture? 1 line).toList, true)
  else if (indent ++ "import" ++ gap ++ "(" ++ gap ++ atEnd).isIn line then ([], true)
  else (((indent ++ spaced "import" ++ goEntry).capture? 1 line).toList, false)

-- ============================================================= single lines

/-- `#include <x>` and `#import "x"`. -/
def includeLine : Pattern :=
  indent ++ "#" ++ gap ++ words ["include", "import"] ++ gap ++ oneOf "\"<" ++
    part 1 (many1 (noneOf "\">")) ++ oneOf "\">"

/-- `import a.b`, static or not. -/
def packageImport : Pattern :=
  indent ++ spaced "import" ++ maybe "static" ++ part 1 (many1 (wordOr "."))

/-- `using a.b;`, static or not. -/
def usingLine : Pattern :=
  indent ++ spaced "using" ++ maybe "static" ++ part 1 (many1 (wordOr ".")) ++ gap ++ ";"

/-- `import a`. -/
def plainImport : Pattern := indent ++ spaced "import" ++ part 1 (many1 word)

/-- `require "x"` and `include "x"`, once or not. -/
def phpRequire : Pattern :=
  wordEdge ++ words ["require", "include"] ++ opt (ofText "_once") ++ gap ++ opt (ofText "(") ++
    gap ++ quotedPart

/-- `use A\B`. -/
def phpUse : Pattern := indent ++ spaced "use" ++ part 1 (many1 (wordOr "\\"))

/-- `require`, `require_relative` and `load`; part 2 is the word. -/
def rubyRequire : Pattern :=
  indent ++ part 2 (words ["require", "require_relative", "load"]) ++ gap ++ opt (ofText "(") ++
    gap ++ quotedPart

/-- `require "x"`, with or without parenthesis. -/
def luaRequire : Pattern :=
  wordEdge ++ "require" ++ gap ++ opt (ofText "(") ++ gap ++ quotedPart

/-- `source x` and `. x`. -/
def shellSource : Pattern :=
  indent ++ words ["source", "."] ++ space ++ opt (oneOf "'\"") ++
    part 1 (many1 (char fun c => !Text.isBlank c && !"'\";".toList.contains c))

/-- A path required relative to the file says so by a leading `./`. -/
def rubySource (m : Match) : Text :=
  let path := (m.part? 1).getD []
  if m.part? 2 = some ("require_relative" : Text) ∧ path.head? ≠ some '.' then "./" ++ path
  else path

/-- The import on a line of a language whose imports fit on one line. -/
def lineImport? (language : Language) (line : Text) : Option Text :=
  match language with
  | .c | .cpp => includeLine.capture? 1 line
  | .java | .kotlin | .scala => packageImport.capture? 1 line
  | .cSharp => usingLine.capture? 1 line
  | .swift => plainImport.capture? 1 line
  | .php => (phpRequire.capture? 1 line).or (phpUse.capture? 1 line)
  | .ruby => (rubyRequire.find? line).map rubySource
  | .lua => luaRequire.capture? 1 line
  | .shell => shellSource.capture? 1 line
  | _ => none

-- =================================================================== all lines

/-- The imports of consecutive lines, repetitions included. -/
def ofLines (language : Language) (ls : List Text) : List Text :=
  match language with
  | .javaScript | .typeScript => scanLines scriptLine false ls
  | .python => scanLines pythonLine none ls
  | .rust => scanLines rustLine none ls
  | .go => scanLines goLine false ls
  | _ => ls.filterMap (lineImport? language)

/-- The imports of a text in the order of their first appearance. -/
def scan (language : Language) (content : Text) : List Text :=
  firstOccurrences (ofLines language (Text.lines content))

end Imports

end SourceDigest
