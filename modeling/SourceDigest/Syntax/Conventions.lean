/-
How the tokens of each grammar are formed: its comments, its literals and
its longer marks.
-/
import SourceDigest.Language
import SourceDigest.Syntax.Token

namespace SourceDigest

namespace Text

-- ================================================================== comments

/-- The length of a comment between slashes and stars, or of one up to the
end of the line. -/
def slashComment? : Text → Option Nat
  | '/' :: '/' :: rest => some (2 + lineLength rest)
  | '/' :: '*' :: rest => some (2 + lengthThrough "*/" rest)
  | _ => none

/-- Like `slashComment?`, where comments may hold comments. -/
def nestedComment? : Text → Option Nat
  | '/' :: '/' :: rest => some (2 + lineLength rest)
  | '/' :: '*' :: rest => some (2 + nestedLength ('/', '*') ('*', '/') 1 rest)
  | _ => none

/-- The length of a line that goes on behind backslashes and in comments,
given whether a comment is open. -/
def continuedLineLength : (inComment : Bool) → Text → Nat
  | _, [] => 0
  | true, '*' :: '/' :: rest => 2 + continuedLineLength false rest
  | true, _ :: rest => 1 + continuedLineLength true rest
  | false, '\\' :: '\r' :: '\n' :: rest => 3 + continuedLineLength false rest
  | false, '\\' :: '\n' :: rest => 2 + continuedLineLength false rest
  | false, '/' :: '*' :: rest => 2 + continuedLineLength true rest
  | false, '\n' :: _ => 0
  | false, _ :: rest => 1 + continuedLineLength false rest

-- ================================================================== literals

/-- A quote and what goes on up to its end, `lead` characters in. -/
def quotedFrom? (lead : Nat) (t : Text) : Option Nat :=
  match t.drop lead with
  | '"' :: rest => some (lead + 1 + quotedLength '"' rest)
  | '\x27' :: rest => some (lead + 1 + quotedLength '\x27' rest)
  | _ => none

/-- Literal text in either kind of quotes. -/
def quoted? (t : Text) : Option (TokenShape × Nat) := (quotedFrom? 0 t).map fun n => (.text, n)

/-- A string between fences of number signs, behind a lead. -/
def fencedFrom? (lead : Nat) (t : Text) : Option Nat :=
  let fence := (t.drop lead).takeWhile (· == '#')
  match t.drop (lead + fence.length) with
  | '"' :: rest => some (lead + fence.length + 1 + lengthThrough ('"' :: fence) rest)
  | _ => none

/-- The first of some leads behind which a literal starts. -/
def afterLead? (leads : List String) (at? : Nat → Text → Option Nat) (t : Text) : Option Nat :=
  leads.findSome? fun lead =>
    if startsWith t lead.toList then at? lead.length t else none

-- =============================================================== the grammars

/-- A character, or the name of a lifetime. -/
def tick? (t : Text) : Option (TokenShape × Nat) :=
  match t with
  | '\x27' :: '\\' :: rest => some (.text, 3 + quotedLength '\x27' (rest.drop 1))
  | '\x27' :: _ :: '\x27' :: _ => some (.text, 3)
  | '\x27' :: rest => some (.mark, 1 + (rest.takeWhile isWord).length)
  | _ => none

/-- Literals of Rust: strings with their leads and fences, characters,
lifetimes and names behind `r#`. -/
def rustLiteral? (t : Text) : Option (TokenShape × Nat) :=
  match afterLead? ["r", "br", "cr"] fencedFrom? t with
  | some n => some (.text, n)
  | none =>
    match afterLead? ["", "b", "c"] quotedFrom? (if t.head? == some '\x27' then [] else t) with
    | some n => some (.text, n)
    | none =>
      if startsWith t "r#" && (t.drop 2).head?.any isWord then
        some (.word, 2 + ((t.drop 2).takeWhile isWord).length)
      else tick? t

/-- A string between a delimiter and parentheses, behind its lead. -/
def delimitedFrom? (lead : Nat) (t : Text) : Option Nat :=
  match t.drop lead with
  | '"' :: rest =>
    let delimiter := rest.takeWhile (· ≠ '(')
    some (lead + 1 + lengthThrough (')' :: delimiter ++ ['"']) rest)
  | _ => none

/-- The length of an include line up to the end of its path. -/
def includeLength? (t : Text) : Option Nat :=
  match t with
  | '#' :: rest =>
    match dropLead? "include" (rest.dropWhile fun c => c == ' ' || c == '\t') with
    | none => none
    | some after =>
      let path := after.dropWhile fun c => c == ' ' || c == '\t'
      let length :=
        match path with
        | '<' :: inner => 1 + lengthThrough ">" inner
        | '"' :: inner => 1 + lengthThrough "\"" inner
        | _ => (path.takeWhile isWord).length
      if length = 0 then none else some (t.length - path.length + length)
  | _ => none

/-- Comments of C, and lines for the preprocessor other than includes. -/
def preprocessed? (t : Text) : Option Nat :=
  if t.head? == some '#' && (includeLength? t).isNone then some (continuedLineLength false t)
  else slashComment? t

/-- The length of a number whose digits may be set apart by ticks. -/
def tickedNumberLength (t : Text) : Nat :=
  (t.takeWhile fun c => c.isAlphanum || c == '.' || c == '\x27' || c == '_').length

/-- Literals of C: includes, strings and characters with their leads, and
numbers. -/
def cLiteral? (t : Text) : Option (TokenShape × Nat) :=
  match includeLength? t with
  | some n => some (.included, n)
  | none =>
    match afterLead? ["R", "LR", "uR", "UR", "u8R"] delimitedFrom? t with
    | some n => some (.text, n)
    | none =>
      match afterLead? ["", "L", "u8", "u", "U"] quotedFrom? t with
      | some n => some (.text, n)
      | none =>
        if t.head?.any Char.isDigit then some (.number, tickedNumberLength t) else none

/-- Literals of Go: strings, raw strings and runes. -/
def goLiteral? (t : Text) : Option (TokenShape × Nat) :=
  match t with
  | '\x60' :: rest => some (.text, 1 + lengthThrough "\x60" rest)
  | _ => quoted? t

/-- Leads of plain strings in Python. -/
def stringLeads : List String := ["", "r", "b", "u", "br", "rb"]

/-- Leads of strings with code in them in Python. -/
def formattedLeads : List String := ["f", "fr", "rf", "t", "tr", "rt"]

/-- The quote behind one of some leads, in any case: how long the lead is
and the quote, tripled or not. -/
def quoteBehind? (leads : List String) (t : Text) : Option (Nat × Text) :=
  leads.findSome? fun lead =>
    if startsWith (lowerAscii (t.take lead.length)) lead.toList then
      (["\"\"\"", "\x27\x27\x27", "\"", "\x27"] : List String).findSome? fun quote =>
        if startsWith (t.drop lead.length) quote.toList then some (lead.length, quote.toList)
        else none
    else none

/-- The number of characters up to and with an unguarded closing text. -/
def guardedLength (closing : Text) : Text → Nat
  | [] => 0
  | '\\' :: _ :: rest => 2 + guardedLength closing rest
  | c :: rest =>
    if startsWith (c :: rest) closing then closing.length else 1 + guardedLength closing rest

/-- Plain strings of Python. -/
def pythonLiteral? (t : Text) : Option (TokenShape × Nat) :=
  (quoteBehind? stringLeads t).map fun (lead, quote) =>
    (.text, lead + quote.length + guardedLength quote (t.drop (lead + quote.length)))

/-- Strings of Python with code in braces. -/
def pythonInterpolated? (t : Text) : Option (Interpolated × Nat) :=
  (quoteBehind? formattedLeads t).map fun (lead, quote) =>
    ({ closing := quote, opening := "\x7b", doubled := true, escapes := true, formats := true },
      lead + quote.length)

/-- Comments of Python, and line ends behind a backslash. -/
def pythonComment? : Text → Option Nat
  | '#' :: rest => some (1 + lineLength rest)
  | '\\' :: '\n' :: _ => some 2
  | '\\' :: '\r' :: '\n' :: _ => some 3
  | _ => none

/-- Words of scripts behind which an operand is still to come. -/
def scriptOperators : List String := [
  "return", "typeof", "case", "in", "of", "delete", "void", "throw", "new", "instanceof", "do",
  "else", "yield", "await", "default", "extends", "export"]

/-- Whether a token of a script ends an operand. -/
def endsOperand (t : Option Token) : Bool :=
  match t with
  | none => false
  | some t =>
    match t.shape with
    | .word => !scriptOperators.any fun w => w.toList == t.text
    | .number | .text | .closes => true
    | .mark | .opens | .included => false

/-- The length of a regular expression after its first slash, given whether
a character class is open; `none` when it does not end on its line. -/
def patternLength? : (inClass : Bool) → Text → Option Nat
  | _, [] => none
  | _, '\n' :: _ => none
  | inClass, '\\' :: _ :: rest => (patternLength? inClass rest).map (2 + ·)
  | inClass, c :: rest =>
    if c = '/' ∧ ¬ inClass then some (1 + (rest.takeWhile Char.isAlphanum).length)
    else (patternLength? (if c = '[' then true else if c = ']' then false else inClass) rest).map
      (1 + ·)

/-- Literals of scripts: strings and regular expressions. -/
def scriptLiteral? (before : Option Token) (t : Text) : Option (TokenShape × Nat) :=
  match t with
  | '/' :: rest =>
    if endsOperand before then none
    else (patternLength? false rest).map fun n => (.text, 1 + n)
  | _ => quoted? t

/-- Strings of scripts with code in braces. -/
def scriptInterpolated? (t : Text) : Option (Interpolated × Nat) :=
  if t.head? == some '\x60' then
    some ({ closing := "\x60", opening := "$\x7b", doubled := false, escapes := true,
            formats := false }, 1)
  else none

/-- Comments of scripts, and an interpreter line. -/
def scriptComment? : Text → Option Nat
  | '#' :: '!' :: rest => some (2 + lineLength rest)
  | t => slashComment? t

/-- Whether markup starts here: a tag, where an operand is to come, that is
no list of type parameters. -/
def startsMarkup (before : Option Token) : Text → Bool
  | '<' :: rest =>
    !endsOperand before &&
      match rest with
      | '>' :: _ => true
      | c :: _ =>
        let name := rest.takeWhile fun d => isWord d || d == '.' || d == '-' || d == ':'
        let after := trimStart (rest.drop name.length)
        (c.isAlpha || c == '_' || c == '$') && after.head? != some ',' &&
          !startsWith after "extends "
      | [] => false
  | _ => false

/-- Marks of scripts. -/
def scriptMarks : List Text := [
  "===", "!==", "...", "=>", "==", "!=", "<=", ">=", "&&", "||", "??", "?.", "++", "--", "+=",
  "-=", "*=", "/=", "**"]

end Text

namespace Conventions

open Text

def rust : Conventions :=
  { plain with
    comment? := fun t =>
      if startsWith t "#!" && !startsWith t "#![" then some (lineLength t) else nestedComment? t
    literal? := fun _ t => rustLiteral? t
    marks := ["...", "..=", "=>", "->", "::", "==", "!=", "<=", ">=", "&&", "||", ".."] }

def python : Conventions :=
  { plain with
    comment? := pythonComment?
    literal? := fun _ t => pythonLiteral? t
    interpolated? := pythonInterpolated?
    marks := ["...", "**=", "//=", ":=", "->", "==", "!=", "<=", ">=", "+=", "-=", "*=", "/=",
      "%=", "&=", "|=", "^=", "@=", "**", "//"] }

def script (markup : Bool) : Conventions :=
  { plain with
    comment? := scriptComment?
    literal? := scriptLiteral?
    interpolated? := scriptInterpolated?
    opensMarkup := fun before t => markup && startsMarkup before t
    marks := scriptMarks
    startsWord := fun c => c == '$' || (isWord c && !isDigit c)
    inWord := fun c => c == '$' || isWord c }

def go : Conventions :=
  { plain with
    comment? := slashComment?
    literal? := fun _ t => goLiteral? t
    marks := ["...", ":=", "<-", "==", "!=", "<=", ">=", "&&", "||", "++", "--", "+=", "-="] }

def c : Conventions :=
  { plain with
    comment? := preprocessed?
    literal? := fun _ t => cLiteral? t
    marks := ["...", "->", "::", "==", "!=", "<=", ">=", "&&", "||", "++", "--", "+=", "-=", "*=",
      "/=", "|=", "&="] }

/-- How the tokens of a grammar are formed. -/
def of : Grammar → Conventions
  | .rust => rust
  | .python => python
  | .javaScript | .tsx => script true
  | .typeScript => script false
  | .go => go
  | .c | .cpp => c

end Conventions

end SourceDigest
