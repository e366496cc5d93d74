/-
Source languages: which one a file is written in, how it marks comments,
whether its bodies stand in braces, and which grammar reads its
structure.

A language is told by the extension of the file name, in any case of
ASCII letters. What no row of the table names is `unknown`, which takes
the comment marks of most languages.
-/
import SourceDigest.Path

namespace SourceDigest

inductive Language where
  | rust
  | python
  | javaScript
  | typeScript
  | go
  | c
  | cpp
  | java
  | kotlin
  | scala
  | cSharp
  | swift
  | ruby
  | php
  | shell
  | lua
  | unknown
deriving DecidableEq, Repr

/-- How a language marks comments. -/
structure CommentSyntax where
  /-- Marks that open a comment up to the end of the line. -/
  line : List Text
  /-- Marks that open and close a comment over several lines. -/
  block : Option (Text × Text)
  /-- Whether triple-quoted strings count as documentation. -/
  docstrings : Bool
deriving DecidableEq

/-- The grammars that structural analysis knows. -/
inductive Grammar where
  | rust
  | python
  | javaScript
  | typeScript
  | tsx
  | go
  | c
  | cpp
deriving DecidableEq, Repr

namespace Language

/-- The extensions of each language. -/
def extensions : List (Language × List String) := [
  (rust, ["rs"]),
  (python, ["py", "pyw", "pyi"]),
  (javaScript, ["js", "jsx", "mjs", "cjs"]),
  (typeScript, ["ts", "tsx", "mts", "cts"]),
  (go, ["go"]),
  (c, ["c", "h"]),
  (cpp, ["cpp", "cc", "cxx", "hpp", "hh", "hxx", "ino"]),
  (java, ["java"]),
  (kotlin, ["kt", "kts"]),
  (scala, ["scala", "sc"]),
  (cSharp, ["cs"]),
  (swift, ["swift"]),
  (ruby, ["rb", "rake"]),
  (php, ["php"]),
  (shell, ["sh", "bash", "zsh"]),
  (lua, ["lua"])]

/-- The first row of a table of extensions that lists one. -/
def lookup? {α : Type} (table : List (α × List String)) (ext : Text) : Option α :=
  (table.find? fun row => row.2.any fun e => e.toList == Text.lowerAscii ext).map Prod.fst

/-- The language of an extension. -/
def ofExtension (ext : Text) : Language := (lookup? extensions ext).getD unknown

/-- The language of a file. -/
def ofPath (path : Path) : Language := ofExtension ((Path.extension? path).getD [])

/-- The comment marks of a language. -/
def comments : Language → CommentSyntax
  | python => ⟨["#"], none, true⟩
  | ruby => ⟨["#"], some ("=begin", "=end"), false⟩
  | shell => ⟨["#"], none, false⟩
  | lua => ⟨["--"], some ("--[[", "]]"), false⟩
  | php | unknown => ⟨["//", "#"], some ("/*", "*/"), false⟩
  | _ => ⟨["//"], some ("/*", "*/"), false⟩

/-- Whether bodies open with a brace. -/
def usesBraces : Language → Bool
  | python | ruby | shell | lua | unknown => false
  | _ => true

end Language

namespace Grammar

/-- The extensions of each grammar. -/
def extensions : List (Grammar × List String) := [
  (rust, ["rs"]),
  (python, ["py", "pyi"]),
  (javaScript, ["js", "jsx", "mjs", "cjs"]),
  (typeScript, ["ts", "mts", "cts"]),
  (tsx, ["tsx"]),
  (go, ["go"]),
  (c, ["c", "h"]),
  (cpp, ["cpp", "hpp", "cc", "cxx", "hh", "hxx"])]

/-- The grammar of an extension, if there is one. -/
def ofExtension? (ext : Text) : Option Grammar := Language.lookup? extensions ext

/-- The grammar of a file, if there is one. -/
def ofPath? (path : Path) : Option Grammar := (Path.extension? path).bind ofExtension?

end Grammar

end SourceDigest
