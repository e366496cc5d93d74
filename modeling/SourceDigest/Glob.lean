/-
Globs: shell-style predicates over paths below a repository root.

# The language

`*` stands for any run of characters within a segment, `?` for one such
character, `**` for anything at all, `**/` for any number of whole
segments. A leading `/` anchors the glob at the root, a trailing `/`
marks a directory. Everything else stands for itself.

A glob without any `/` names something at any depth; one with an inner
`/` is anchored at the root. A glob whose last segment is a plain name,
or that marks a directory, also matches everything below it.

# How it is matched

A glob becomes a list of units. From the last unit to the first it is
worked out, for every place of a path at once, whether the units from there
on cover the path from that place on; so the effort is the length of the
glob times that of the path, whatever they hold. A glob of the form `*.ext`
is a comparison of endings instead. A glob that would weigh more than ten
mebibytes as an automaton matches only the path that is written like it.

What it would weigh is an estimate. An engine of regular expressions counts
the bytes of the automaton that it builds, which depend on whether case is
regarded and on how many bytes a character is encoded in; here each unit of
a glob has a weight of its own. So a glob near the limit may be taken for
too heavy here and not there, or the other way round. What a shape covers
(`Shape.covers`) does not ask for its weight.
-/
import SourceDigest.Text.Casing

namespace SourceDigest

namespace Glob

-- ============================================================ path spelling

/-- A path without the `./` it begins with, however many. -/
def dropHere : Text → Text
  | '.' :: '/' :: rest => dropHere rest
  | t => t

/-- A path as globs see it: forward slashes, and neither `./` runs nor,
after them, slashes in front. -/
def normalizePath (path : Text) : Text :=
  (dropHere (Text.replace '\\' '/' path)).dropWhile (· == '/')

/-- A glob with forward slashes and without blanks around it. -/
def normalizeGlob (glob : Text) : Text := Text.replace '\\' '/' (Text.trim glob)

-- =================================================================== tokens

/-- A unit of a glob. -/
inductive Token where
  /-- Any number of whole segments. -/
  | segments
  /-- Any characters. -/
  | anything
  /-- Any characters within a segment. -/
  | run
  /-- One character within a segment. -/
  | single
  /-- A character that stands for itself. -/
  | char (c : Char)
deriving DecidableEq

/-- The units of a glob, read from left to right. -/
def tokens : Text → List Token
  | [] => []
  | '*' :: '*' :: '/' :: rest => .segments :: tokens rest
  | '*' :: '*' :: rest => .anything :: tokens rest
  | '*' :: rest => .run :: tokens rest
  | '?' :: rest => .single :: tokens rest
  | c :: rest => .char c :: tokens rest

/-- A wildcard within a segment. -/
def isWildcard (c : Char) : Bool := c == '*' || c == '?'

/-- What a glob says: where it may start, its units, and whether it covers
what lies below. -/
structure Shape where
  body : List Token
  coversBelow : Bool

/-- The shape of a normalized glob. A trailing slash is taken off first,
then a leading one; what then holds no slash may start at any segment. -/
def shape (glob : Text) : Shape :=
  let dirOnly := glob.length > 1 && glob.getLast? == some '/'
  let named := if dirOnly then glob.dropLast else glob
  let anchored := named.head? == some '/'
  let body := if anchored then named.tail else named
  let free := !anchored && !body.contains '/'
  { body := (if free then [.segments] else []) ++ tokens body
    coversBelow := dirOnly || !(Text.afterLast '/' body).any isWildcard }

-- ================================================================= matching

/-- What holds at the places of a path, from its start to its end: one more
than the path has characters. -/
abbrev Row := List Bool

/-- Where only nothing is left of a path: at its end. -/
def atEnd (path : Text) : Row := path.map (fun _ => false) ++ [true]

/-- Where a character passes a test and behind it a row holds. -/
def behindOne (ok : Char → Bool) : Text → Row → Row
  | c :: path, _ :: row => (ok c && row.headD false) :: behindOne ok path row
  | _, _ => [false]

/-- Where a row holds, be it behind some characters that pass a test. -/
def behindMany (ok : Char → Bool) : Text → Row → Row
  | c :: path, here :: row =>
    let later := behindMany ok path row
    (here || (ok c && later.headD false)) :: later
  | _, row => row

/-- Where one of two rows holds. -/
def either (a b : Row) : Row := List.zipWith (· || ·) a b

/-- Any character of a line. -/
def isInLine (c : Char) : Bool := c != '\n'

/-- A character that is part of a segment. -/
def isInSegment (c : Char) : Bool := c != '/'

/-- The character that ends a segment. -/
def isSlash (c : Char) : Bool := c == '/'

/-- Where a token can stand so that behind it a row holds. -/
def Token.row (ignoreCase : Bool) (path : Text) (t : Token) (row : Row) : Row :=
  match t with
  | segments => either row (behindMany isInLine path (behindOne isSlash path row))
  | anything => behindMany isInLine path row
  | run => behindMany isInSegment path row
  | single => behindOne isInSegment path row
  | char c => behindOne (fun d => if ignoreCase then Text.sameLetter c d else c == d) path row

/-- Where a glob may be through with a path: at its end, or before a slash
if the glob covers what lies below. -/
def Shape.endRow (s : Shape) (path : Text) : Row :=
  if s.coversBelow then
    either (atEnd path) (behindOne isSlash path (behindMany isInLine path (atEnd path)))
  else atEnd path

/-- Whether a shape covers a whole path. -/
def Shape.covers (s : Shape) (ignoreCase : Bool) (path : Text) : Bool :=
  (s.body.foldr (Token.row ignoreCase path) (s.endRow path)).headD false

/-- What a token adds to the weight of a glob, in bytes and roughly: a wildcard
is an automaton over all encoded characters, a plain character one state. -/
def Token.weight : Token → Nat
  | segments => 900
  | anything => 800
  | run => 800
  | single => 750
  | char _ => 40

/-- The weight beyond which a glob is taken as written: ten mebibytes, which
is what an engine of regular expressions allows unless told otherwise. -/
def weightLimit : Nat := 10 * 1024 * 1024

/-- Whether a shape stays within that weight. -/
def Shape.fits (s : Shape) : Bool := s.body.foldr (fun t n => t.weight + n) 0 ≤ weightLimit

end Glob

/-- How a compiled glob decides. -/
inductive GlobTest where
  /-- The path ends like this. -/
  | suffix (tail : Text)
  /-- The shape covers the path. -/
  | shape (s : Glob.Shape)
  /-- The path reads like this. -/
  | literal (path : Text)

/-- A glob ready to be matched. -/
structure Glob where
  /-- The glob as written, trimmed and with forward slashes. -/
  text : Text
  ignoreCase : Bool
  test : GlobTest

namespace Glob

-- ================================================================ compiling

/-- The ending that a glob `*.ext` asks for, when `ext` is not empty and
holds neither wildcard nor slash. -/
def suffix? (glob : Text) : Option Text :=
  match glob with
  | '*' :: '.' :: ext =>
    if ext = [] || ext.any (fun c => isWildcard c || c == '/') then none else some ('.' :: ext)
  | _ => none

/-- The test of a glob by its shape. -/
def generalTest (glob : Text) : GlobTest :=
  if (shape glob).fits then .shape (shape glob) else .literal glob

/-- The test of a glob: a comparison of endings where that suffices. -/
def testOf (glob : Text) (ignoreCase : Bool) : GlobTest :=
  match suffix? glob with
  | some tail => .suffix (if ignoreCase then Text.lower tail else tail)
  | none => generalTest glob

/-- Compiles a glob, with or without regard to case. -/
def compileWith (glob : Text) (ignoreCase : Bool) : Glob :=
  let text := normalizeGlob glob
  { text, ignoreCase, test := testOf text ignoreCase }

/-- Compiles a glob. -/
def compile (glob : Text) : Glob := compileWith glob false

/-- Compiles a glob that disregards case. -/
def compileIgnoringCase (glob : Text) : Glob := compileWith glob true

/-- Compiles a glob by its shape even where a comparison of endings would
do. -/
def compileGeneral (glob : Text) : Glob :=
  let text := normalizeGlob glob
  { text, ignoreCase := false, test := generalTest text }

/-- Whether the glob is a comparison of endings. -/
def isSuffix (g : Glob) : Bool :=
  match g.test with
  | .suffix _ => true
  | _ => false

/-- Whether a normalized path passes the test of a glob. -/
def accepts (g : Glob) (path : Text) : Bool :=
  match g.test with
  | .suffix tail => Text.endsWith (if g.ignoreCase then Text.lower path else path) tail
  | .shape s => s.covers g.ignoreCase path
  | .literal glob => if g.ignoreCase then Text.sameAscii path glob else path == glob

/-- Whether a glob matches a path. -/
def isMatch (g : Glob) (path : Text) : Bool := accepts g (normalizePath path)

end Glob

end SourceDigest
