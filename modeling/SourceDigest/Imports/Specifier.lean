/-
Specifiers: where an import may lead, as paths to be tried in order.

A relative specifier starts with `./` or `../` and is tried from the
directory of the importing file only. A path is tried from the root of
the repository, then from that directory, then by its bare name.

Rust modules are tried at the longest path first, since the last
segments of a path may be items inside a module. `crate` stands for the
source directory that the importer lies in; `self` and `super` depend on
whether the importer is the file of a module directory.
-/
import SourceDigest.Imports.Scan

namespace SourceDigest

/-- A place where an import may lead. -/
inductive Specifier where
  | relative (path : Text)
  | path (path : Text)
deriving DecidableEq, Repr

namespace Specifier

/-- A specifier is relative when it says so. -/
def ofText (spec : Text) : Specifier :=
  if Text.startsWith spec "./" || Text.startsWith spec "../" then relative spec
  else path (spec.dropWhile (· == '/'))

-- ============================================================ module paths

/-- The pieces between double colons. -/
def splitColons : Text → List Text
  | [] => [[]]
  | ':' :: ':' :: rest => [] :: splitColons rest
  | c :: rest =>
    match splitColons rest with
    | [] => [[c]]
    | piece :: more => (c :: piece) :: more

/-- The directory of the source tree that a file lies in: up to the last
segment `src`, or `src` at the root. -/
def sourceRoot (importer : Text) : Text :=
  match ((Text.splitOn '/' importer).reverse.dropWhile (· ≠ ("src" : Text))).reverse with
  | [] => "src"
  | segments => Text.join "/" segments

/-- The last segment of a path. -/
def lastSegment (p : Text) : Text := Text.afterLast '/' p

/-- Whether a file stands for the directory it lies in. -/
def isModuleRoot (importer : Text) : Bool :=
  ["mod.rs", "lib.rs", "main.rs"].any fun n => n.toList == lastSegment importer

/-- The name of the module that a file holds. -/
def moduleName (importer : Text) : Text :=
  (Text.dropTail? ".rs" (lastSegment importer)).getD (lastSegment importer)

/-- Where the submodules of a file lie, seen from its directory. -/
def moduleDir (importer : Text) : Text :=
  if isModuleRoot importer then "." else "./" ++ moduleName importer

/-- Where a module path starts and the segments that follow; `none` for a
path into another package. -/
def moduleBase? (importer : Text) : List Text → Option (Text × List Text)
  | first :: rest =>
    if first = ("crate" : Text) then some ("/" ++ sourceRoot importer, rest)
    else if first = ("super" : Text) then
      some (if isModuleRoot importer then ".." else ".", rest)
    else if first = ("self" : Text) then some (moduleDir importer, rest)
    else none
  | [] => none

/-- A module path below a base: from the root when the base is absolute. -/
def ofModule (base : Text) (segments : List Text) : Specifier :=
  match base ++ "/" ++ Text.join "/" segments with
  | '/' :: rooted => path rooted
  | spec => relative spec

/-- The non-empty beginnings of a list, the longest first. -/
def leadingParts {α : Type} (xs : List α) : List (List α) :=
  ((List.range xs.length).map fun n => xs.take (n + 1)).reverse

/-- The specifiers of a module path or of a declared module. -/
def ofRust (importer raw : Text) : List Specifier :=
  match Text.dropLead? "mod " raw with
  | some name => [relative (moduleDir importer ++ "/" ++ name)]
  | none =>
    match moduleBase? importer ((splitColons raw).filter (· ≠ [])) with
    | none => []
    | some (base, rest) =>
      (leadingParts (rest.dropWhile (· = ("super" : Text)))).map (ofModule base)

-- ============================================================ dotted paths

/-- The specifier of a dotted module: one dot in front means the directory
of the importer, each further dot the directory above. -/
def ofDotted (raw : Text) : Specifier :=
  let dots := (raw.takeWhile (· == '.')).length
  let rest := Text.replace '.' '/' (raw.drop dots)
  if dots = 0 then path rest
  else
    let up : Text := if dots = 1 then "." else Text.join "/" (List.replicate (dots - 1) "..")
    relative (if rest = [] then up else up ++ "/" ++ rest)

/-- A text without `.*` at its end, however often. -/
def dropStars (t : Text) : Text :=
  let rec go : Text → Text
    | '*' :: '.' :: rest => go rest
    | r => r
  (go t.reverse).reverse

-- ================================================================= languages

/-- The specifiers to try, in order, for an import of a file. -/
def ofImport (language : Language) (importer raw : Text) : List Specifier :=
  match language with
  | .rust => ofRust importer raw
  | .python => [ofDotted raw]
  | .java | .kotlin | .scala | .cSharp => [path (Text.replace '.' '/' (dropStars raw))]
  | .php => [ofText (Text.replace '\\' '/' raw)]
  | .lua => [ofText (Text.replace '.' '/' raw)]
  | _ => [ofText raw]

end Specifier

end SourceDigest
