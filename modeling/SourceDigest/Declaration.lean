/-
Declarations read off single lines.

Each family of languages has its patterns for imports, enums, classes,
functions and variables; every pattern keeps the declared name as part
1. A line declares what the first pattern that yields a usable name
says, the kinds being tried in that order. A name is usable when
something is left of it without quotes around and colons behind and,
imports apart, it is not a keyword of any common language.

A family may also have import blocks in parentheses. Inside a block only
entries count, and a line that closes the block holds none.
-/
import SourceDigest.Pattern
import SourceDigest.Language
import SourceDigest.Entity

namespace SourceDigest

open Pattern

/-- Import blocks over several lines. -/
structure ImportBlock where
  opens : Pattern
  entry : Pattern
  closes : Pattern

/-- The patterns of a family of languages. -/
structure DeclarationRules where
  imports : List Pattern := []
  enums : List Pattern := []
  classes : List Pattern := []
  functions : List Pattern := []
  bindings : List Pattern := []
  importBlock : Option ImportBlock := none

namespace DeclarationRules

-- ========================================================== pieces of patterns

/-- A letter or low line. -/
def nameStart : Pattern := char fun c => c.isAlpha || c == '_'

/-- A plain identifier. -/
def identifier : Pattern := nameStart ++ many word

/-- A letter, low line or dollar sign. -/
def scriptNameStart : Pattern := char fun c => c.isAlpha || c == '_' || c == '$'

/-- An identifier that may hold dollar signs. -/
def scriptName : Pattern :=
  scriptNameStart ++ many (char fun c => Text.isWord c || c == '$')

/-- A character of a word, or one of a string. -/
def wordOr (more : String) : Pattern := char fun c => Text.isWord c || more.toList.contains c

/-- The start of a line and the blanks there. -/
def indent : Pattern := atStart ++ gap

/-- A word and the blanks behind it. -/
def spaced (w : String) : Pattern := ofText w.toList ++ space

/-- A word and the blanks behind it, if it is there. -/
def maybe (w : String) : Pattern := opt (spaced w)

/-- Any number of the given words, each with blanks behind. -/
def modifiers (ws : List String) : Pattern := many (words ws ++ space)

/-- Text in either kind of quotes, kept as part 1. -/
def quotedPart : Pattern := oneOf "'\"" ++ part 1 (many1 (noneOf "'\"")) ++ oneOf "'\""

/-- Text in double quotes, kept as part 1. -/
def doubleQuotedPart : Pattern := "\"" ++ part 1 (many1 (noneOf "\"")) ++ "\""

/-- A visibility with or without its scope. -/
def visibility : Pattern :=
  opt ("pub" ++ opt ("(" ++ many (noneOf ")") ++ ")") ++ space)

-- ==================================================================== families

def rust : DeclarationRules where
  imports := [
    indent ++ visibility ++ spaced "use" ++
      part 1 (opt (ofText "::") ++ nameStart ++ many (wordOr ":")),
    indent ++ visibility ++ spaced "mod" ++ part 1 identifier ++ gap ++ ";",
    indent ++ spaced "extern" ++ spaced "crate" ++ part 1 identifier]
  enums := [indent ++ visibility ++ spaced "enum" ++ part 1 identifier]
  classes := [
    indent ++ visibility ++ maybe "unsafe" ++ words ["struct", "trait", "union", "type"] ++
      space ++ part 1 identifier]
  functions := [
    indent ++ visibility ++
      many ((words ["const", "async", "unsafe"]
        <|> spaced "extern" ++ "\"" ++ many (noneOf "\"") ++ "\"") ++ space) ++
      spaced "fn" ++ part 1 identifier]
  bindings := [
    indent ++ visibility ++ words ["const", "static"] ++ space ++ maybe "mut" ++
      part 1 identifier ++ gap ++ ":"]

def python : DeclarationRules where
  imports := [
    indent ++ spaced "import" ++ part 1 (many1 (wordOr ".")),
    indent ++ spaced "from" ++ part 1 (many (ofText ".") ++ many (wordOr ".")) ++ space ++
      "import" ++ wordEdge]
  enums := [
    indent ++ spaced "class" ++ part 1 identifier ++ gap ++ "(" ++ gap ++
      opt (many (wordOr ".") ++ ".") ++ opt (words ["Int", "Str"]) ++
      words ["Enum", "Flag"] ++ gap ++ ")"]
  classes := [indent ++ spaced "class" ++ part 1 identifier]
  functions := [indent ++ maybe "async" ++ spaced "def" ++ part 1 identifier]
  bindings := [
    atStart ++ part 1 identifier ++ gap ++ opt (":" ++ many (noneOf "=")) ++ "=" ++
      (noneOf "=" <|> atEnd)]

def script : DeclarationRules where
  imports := [
    indent ++ spaced "import" ++ maybe "type" ++
      opt (many1 (char fun c =>
        Text.isWord c || Text.isBlank c || "*\x7b\x7d,$".toList.contains c) ++
        space ++ spaced "from") ++ quotedPart,
    indent ++ spaced "export" ++ (ofText "*" <|> "\x7b" ++ many (noneOf "\x7d") ++ "\x7d") ++
      space ++ spaced "from" ++ quotedPart,
    wordEdge ++ "require(" ++ gap ++ quotedPart ++ gap ++ ")"]
  enums := [
    indent ++ maybe "export" ++ maybe "declare" ++ maybe "const" ++ spaced "enum" ++
      part 1 scriptName]
  classes := [
    indent ++ maybe "export" ++ maybe "default" ++ maybe "declare" ++ maybe "abstract" ++
      words ["class", "interface"] ++ space ++ part 1 scriptName,
    indent ++ maybe "export" ++ spaced "type" ++ part 1 scriptName ++ gap ++
      opt ("<" ++ many (noneOf ">") ++ ">") ++ gap ++ "="]
  functions := [
    indent ++ maybe "export" ++ maybe "default" ++ maybe "async" ++ "function" ++ gap ++
      opt (ofText "*") ++ gap ++ part 1 scriptName,
    indent ++ maybe "export" ++ words ["const", "let", "var"] ++ space ++ part 1 scriptName ++
      gap ++ opt (":" ++ many1 (noneOf "=")) ++ "=" ++ gap ++ maybe "async" ++
      ("function" ++ wordEdge
        <|> "(" ++ many (noneOf ")") ++ ")" ++ gap ++ opt (":" ++ many1 (noneOf "=")) ++ "=>"
        <|> scriptName ++ gap ++ "=>"),
    atStart ++ space ++
      modifiers ["public", "private", "protected", "static", "readonly", "async", "get", "set"] ++
      part 1 scriptName ++ gap ++ "(" ++ many (noneOf ")") ++ ")" ++ gap ++
      opt (":" ++ gap ++ many1 (noneOf "\x7b")) ++ "\x7b" ++ gap ++ atEnd]
  bindings := [
    indent ++ maybe "export" ++ words ["const", "let", "var"] ++ space ++ part 1 scriptName]

/-- A path in double quotes, perhaps after a name for it. -/
def goEntry : Pattern := opt (many1 (wordOr ".") ++ space) ++ doubleQuotedPart

def go : DeclarationRules where
  imports := [indent ++ spaced "import" ++ goEntry]
  classes := [
    indent ++ spaced "type" ++ part 1 identifier ++ space ++ words ["struct", "interface"] ++
      wordEdge]
  functions := [
    indent ++ spaced "func" ++ opt ("(" ++ many (noneOf ")") ++ ")" ++ gap) ++ part 1 identifier]
  bindings := [indent ++ words ["var", "const"] ++ space ++ part 1 identifier]
  importBlock := some {
    opens := indent ++ "import" ++ gap ++ "(" ++ gap ++ atEnd
    entry := indent ++ goEntry
    closes := indent ++ ")" }

/-- The languages that descend from C. -/
def braced : DeclarationRules where
  imports := [
    indent ++ "#" ++ gap ++ "include" ++ gap ++ oneOf "<\"" ++ part 1 (many1 (noneOf ">\"")) ++
      oneOf ">\"",
    indent ++ spaced "import" ++ maybe "static" ++
      part 1 (many1 (wordOr ".") ++ opt (ofText ".*")),
    indent ++ spaced "using" ++ maybe "static" ++ part 1 (many1 (wordOr ".")) ++ gap ++ ";",
    indent ++ words ["require", "include"] ++ opt (ofText "_once") ++ gap ++ opt (ofText "(") ++
      gap ++ quotedPart]
  enums := [
    indent ++ modifiers ["public", "private", "protected", "internal", "static", "export"] ++
      spaced "enum" ++ opt (spaced "class" <|> spaced "struct") ++ part 1 identifier]
  classes := [
    indent ++ opt ("template" ++ gap ++ "<" ++ many (noneOf ">") ++ ">" ++ gap) ++
      modifiers ["public", "private", "protected", "internal", "abstract", "final", "static",
        "sealed", "partial", "open", "data", "inline", "export"] ++
      words ["class", "struct", "interface", "record", "trait", "object", "protocol", "union"] ++
      space ++ part 1 identifier]
  functions := [
    indent ++ modifiers ["public", "private", "protected", "internal", "static", "abstract",
        "final", "override", "suspend", "inline", "open", "operator", "infix", "tailrec"] ++
      spaced "fun" ++ opt ("<" ++ many (noneOf ">") ++ ">" ++ gap) ++
      opt (many1 (wordOr ".") ++ ".") ++ part 1 identifier,
    indent ++ modifiers ["public", "private", "protected", "static", "final", "abstract"] ++
      spaced "function" ++ opt (ofText "&") ++ part 1 identifier,
    indent ++ modifiers ["public", "private", "internal", "fileprivate", "open", "static",
        "override", "mutating", "class"] ++
      spaced "func" ++ part 1 identifier,
    indent ++ modifiers ["override", "private", "protected", "final", "implicit"] ++
      spaced "def" ++ part 1 identifier,
    indent ++ many1 (nameStart ++ many (wordOr ":<>,[]") ++
        many1 (char fun c => Text.isBlank c || c == '*' || c == '&')) ++
      many (ofText "*") ++ opt (ofText "&") ++
      part 1 (identifier ++
        many ("::" ++ char (fun c => c.isAlpha || c == '_' || c == '~') ++ many word)) ++
      gap ++ "(" ++ many (noneOf ";") ++ atEnd]
  bindings := [
    indent ++ "#" ++ gap ++ spaced "define" ++ part 1 identifier,
    indent ++ opt (words ["private", "public", "internal", "protected"] ++ space) ++
      words ["val", "var", "let"] ++ space ++ part 1 identifier,
    indent ++ many1 (words ["public", "private", "protected", "internal", "static", "final",
        "const", "readonly", "constexpr"] ++ space) ++
      opt (many1 (wordOr "<>,[]") ++ space) ++ part 1 identifier ++ gap ++ oneOf "=;"]

/-- Shells and what else has no family of its own. -/
def general : DeclarationRules where
  imports := [
    indent ++ "require" ++ opt (ofText "_relative") ++ gap ++ opt (ofText "(") ++ gap ++
      quotedPart,
    indent ++ spaced "source" ++ opt (oneOf "'\"") ++
      part 1 (many1 (char fun c => !Text.isBlank c && c != '\x27' && c != '"'))]
  enums := [indent ++ spaced "enum" ++ part 1 identifier]
  classes := [
    indent ++ words ["class", "module", "struct", "interface", "trait"] ++ space ++
      part 1 (nameStart ++ many (wordOr ":"))]
  functions := [
    indent ++ maybe "local" ++ words ["function", "def", "fn", "func", "sub"] ++ space ++
      opt (ofText "self.") ++ part 1 (nameStart ++ many (wordOr ".:")),
    indent ++ part 1 (nameStart ++ many (wordOr "-")) ++ gap ++ "()" ++ gap ++
      opt (ofText "\x7b") ++ gap ++ atEnd]
  bindings := [
    indent ++ opt (spaced "local" <|> spaced "export" <|> spaced "readonly") ++
      part 1 (char (fun c => c.isUpper || c == '_') ++
        many (char fun c => c.isUpper || c.isDigit || c == '_')) ++ gap ++ "="]

/-- The family of a language. -/
def of : Language → DeclarationRules
  | .rust => rust
  | .python => python
  | .javaScript | .typeScript => script
  | .go => go
  | .c | .cpp | .java | .kotlin | .scala | .cSharp | .swift | .php => braced
  | .ruby | .shell | .lua | .unknown => general

-- ======================================================================= names

/-- Words that are no names, whatever the language. -/
def keywords : List String := [
  "if", "else", "elif", "for", "foreach", "while", "do", "switch", "case", "return", "catch",
  "try", "finally", "throw", "sizeof", "typeof", "function", "class", "struct", "enum", "with",
  "loop", "fn", "def", "yield", "await", "async", "super", "this", "self", "import", "from",
  "export", "static", "public", "private", "protected", "const", "let", "var", "void", "int",
  "char", "float", "double", "bool", "auto", "unsafe", "in", "of", "not", "and", "or", "is",
  "lambda", "pass", "using", "namespace", "template", "typename", "defined"]

def isKeyword (name : Text) : Bool := keywords.any fun k => k.toList == name

/-- A name without blanks and quotes around it and colons behind it. -/
def cleanName (raw : Text) : Text :=
  Text.trimEndOf (· == ':') (Text.trimOf (fun c => c == '"' || c == '\x27') (Text.trim raw))

/-- Whether a cleaned name can be the name of an entity of a kind. -/
def isUsable (kind : EntityKind) (name : Text) : Bool :=
  !name.isEmpty && (kind == .imported || !isKeyword name)

-- ==================================================================== one line

/-- The kinds and their patterns, in the order they are tried. -/
def families (r : DeclarationRules) : List (EntityKind × List Pattern) :=
  [(.imported, r.imports), (.enum, r.enums), (.type, r.classes), (.function, r.functions),
    (.variable, r.bindings)]

/-- The entity that one pattern finds on a line. -/
def entityBy? (kind : EntityKind) (line : Text) (p : Pattern) : Option Entity :=
  match p.capture? 1 line with
  | some raw => if isUsable kind (cleanName raw) then some ⟨cleanName raw, kind⟩ else none
  | none => none

/-- The entity that a line declares on its own. -/
def declared? (r : DeclarationRules) (line : Text) : Option Entity :=
  r.families.findSome? fun family => family.2.findSome? (entityBy? family.1 line)

-- =================================================================== all lines

/-- What a line adds, inside an import block or outside, and whether the
next line is inside one. -/
def readLine (r : DeclarationRules) (inBlock : Bool) (line : Text) : Option Entity × Bool :=
  match r.importBlock with
  | none => (r.declared? line, inBlock)
  | some block =>
    if inBlock then
      if block.closes.isIn line then (none, false)
      else ((block.entry.capture? 1 line).map fun raw => ⟨cleanName raw, .imported⟩, true)
    else if block.opens.isIn line then (none, true)
    else (r.declared? line, false)

/-- The entities of consecutive lines, repetitions included. -/
def readLines (r : DeclarationRules) : (inBlock : Bool) → List Text → List Entity
  | _, [] => []
  | inBlock, line :: rest =>
    let (found, next) := r.readLine inBlock line
    found.toList ++ readLines r next rest

end DeclarationRules

namespace Entity

/-- The kind of declaration that a single line holds. -/
def kindOfLine? (language : Language) (line : Text) : Option EntityKind :=
  ((DeclarationRules.of language).declared? line).map (·.kind)

/-- The entities of a source text that patterns find, at their first
appearance. -/
def byPatterns (language : Language) (content : Text) : List Entity :=
  firstOccurrences ((DeclarationRules.of language).readLines false (Text.lines content))

end Entity

end SourceDigest
