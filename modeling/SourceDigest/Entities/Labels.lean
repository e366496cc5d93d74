/-
Labeled words: the words of a line, and the entities that labels on them
spell out.

# Words

A word is a name (an ASCII letter, low line or dollar sign and what goes
on with word characters and dollar signs), a number of decimal digits, or
any other single character that is no blank.

# Labels

`B-kind` begins an entity, `I-kind` goes on with one of the same kind and
begins one otherwise, anything else is outside. An entity reaches from
its first word to its last, whatever stands between them.
-/
import SourceDigest.Pattern
import SourceDigest.Entity
import SourceDigest.Text.Utf8

namespace SourceDigest

/-- A stretch of a line, by the characters before its start and before its
end. -/
structure Span where
  start : Nat
  stop : Nat
deriving DecidableEq, Repr

namespace Span

/-- The text that a span covers. -/
def cover (line : Text) (s : Span) : Text := (line.drop s.start).take (s.stop - s.start)

/-- The bytes before the start and before the end of a span. -/
def byteRange (line : Text) (s : Span) : Nat × Nat :=
  (Text.byteSize (line.take s.start), Text.byteSize (line.take s.stop))

end Span

namespace Labels

open Pattern

/-- The shape of a word. -/
def wordPattern : Pattern :=
  char (fun c => c.isAlpha || c == '_' || c == '$') ++
      many (char fun c => Text.isWord c || c == '$')
    <|> many1 (char Text.isDigit)
    <|> char (fun c => !Text.isBlank c)

/-- The words of a line. -/
def words (line : Text) : List Span :=
  (wordPattern.findAll line).map fun m => ⟨m.start, m.stop⟩

/-- What a label says about its word. -/
inductive Mark where
  | begins (kind : Text)
  | inside (kind : Text)
  | outside
deriving DecidableEq, Repr

/-- A label taken apart at its first hyphen. -/
def Mark.ofLabel (label : Text) : Mark :=
  let lead := Text.before '-' label
  let kind := label.drop (lead.length + 1)
  if lead = ['B'] then begins kind else if lead = ['I'] then inside kind else outside

/-- An entity whose end has not been seen. -/
structure Open where
  kind : Text
  span : Span
deriving DecidableEq, Repr

/-- The entity that an open one has become. -/
def Open.close (line : Text) (o : Open) : List Entity :=
  let name := Text.trim (o.span.cover line)
  if name = [] then [] else [⟨name, EntityKind.ofLabel o.kind⟩]

/-- The entity that a possibly open one has become. -/
def closeAny (line : Text) (o : Option Open) : List Entity :=
  match o with
  | some o => o.close line
  | none => []

/-- The entities of labeled words, given the one that is open. -/
def decodeFrom (line : Text) : Option Open → List (Span × Mark) → List Entity
  | current, [] => closeAny line current
  | current, (span, mark) :: rest =>
    match mark with
    | .begins kind => closeAny line current ++ decodeFrom line (some ⟨kind, span⟩) rest
    | .inside kind =>
      match current with
      | some o =>
        if o.kind = kind then decodeFrom line (some ⟨kind, ⟨o.span.start, span.stop⟩⟩) rest
        else o.close line ++ decodeFrom line (some ⟨kind, span⟩) rest
      | none => decodeFrom line (some ⟨kind, span⟩) rest
    | .outside => closeAny line current ++ decodeFrom line none rest

/-- The entities of a line whose words carry labels. -/
def decode (line : Text) (spans : List Span) (labels : List Text) : List Entity :=
  decodeFrom line none (spans.zip (labels.map Mark.ofLabel))

end Labels

end SourceDigest
