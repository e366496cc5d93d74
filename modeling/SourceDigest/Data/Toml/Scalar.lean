/-
TOML: texts, keys, numbers and moments.

A reader takes what it knows from the front of a text and gives the rest;
it gives nothing when the text does not start as it must. Texts are what
stands between quotes, with escapes in the basic kinds only. Numbers may
have low lines between digits. Of moments only the form is checked.
-/
import SourceDigest.Data.Basic

namespace SourceDigest

namespace Toml

/-- Takes something from the front of a text. -/
abbrev Reader (α : Type) := Text → Option (α × Text)

-- ====================================================================== blanks

def isSpace (c : Char) : Bool := c == ' ' || c == '\t'

/-- What may stand in comments and literal texts: no control characters
but tabs. -/
def isPlain (c : Char) : Bool := c == '\t' || (0x20 ≤ c.toNat && c.toNat ≠ 0x7F)

/-- The rest behind blanks on the line. -/
def skipSpaces (t : Text) : Text := t.dropWhile isSpace

/-- The rest behind a line end, which may be the end of all. -/
def lineEnd? : Text → Option Text
  | [] => some []
  | '\n' :: rest => some rest
  | '\r' :: '\n' :: rest => some rest
  | _ => none

/-- The rest behind what may end a line: blanks and a comment. -/
def restOfLine? (t : Text) : Option Text :=
  match skipSpaces t with
  | '#' :: comment => lineEnd? (comment.dropWhile isPlain)
  | t => lineEnd? t

/-- The rest behind blanks, line ends and comments; it starts inside a
comment or not. -/
def skipLines : (inComment : Bool) → Text → Text
  | _, [] => []
  | _, '\n' :: rest => skipLines false rest
  | _, '\r' :: '\n' :: rest => skipLines false rest
  | true, c :: rest => if isPlain c then skipLines true rest else c :: rest
  | false, c :: rest =>
    if isSpace c then skipLines false rest
    else if c = '#' then skipLines true rest
    else c :: rest

-- ======================================================================= texts

/-- The value of a digit in bases up to sixteen. -/
def digitValue? (c : Char) : Option Nat :=
  if c.isDigit then some (c.toNat - 48)
  else if 'a' ≤ c ∧ c ≤ 'f' then some (c.toNat - 87)
  else if 'A' ≤ c ∧ c ≤ 'F' then some (c.toNat - 55)
  else none

/-- The number of some digits in a base. -/
def ofDigits (base : Nat) (digits : Text) : Nat :=
  digits.foldl (fun n c => n * base + (digitValue? c).getD 0) 0

/-- The character with a code in hexadecimal digits. -/
def charOf? (digits : Text) : Option Char :=
  if digits.all fun c => (digitValue? c).isSome then
    let n := ofDigits 16 digits
    if n.isValidChar then some (Char.ofNat n) else none
  else none

/-- The character that an escape of one letter stands for. -/
def escaped? : Char → Option Char
  | 'b' => some '\x08'
  | 't' => some '\t'
  | 'n' => some '\n'
  | 'f' => some '\x0c'
  | 'r' => some '\r'
  | '"' => some '"'
  | '\\' => some '\\'
  | _ => none

/-- Puts a character in front of what a reader has read. -/
def consChar (c : Char) (read : Option (Text × Text)) : Option (Text × Text) :=
  read.map fun (t, rest) => (c :: t, rest)

/-- What stands before the closing quote of a basic text. -/
def basicBody : Reader Text
  | [] => none
  | '"' :: rest => some ([], rest)
  | '\\' :: 'u' :: a :: b :: c :: d :: rest =>
    (charOf? [a, b, c, d]).bind fun x => consChar x (basicBody rest)
  | '\\' :: 'U' :: a :: b :: c :: d :: e :: f :: g :: h :: rest =>
    (charOf? [a, b, c, d, e, f, g, h]).bind fun x => consChar x (basicBody rest)
  | '\\' :: c :: rest => (escaped? c).bind fun x => consChar x (basicBody rest)
  | c :: rest => if isPlain c then consChar c (basicBody rest) else none

/-- Whether only blanks stand before the next line end. -/
def endsLine (t : Text) : Bool :=
  match skipSpaces t with
  | '\n' :: _ | '\r' :: '\n' :: _ => true
  | _ => false

/-- What stands before the closing quotes of a basic text over several
lines; a backslash at the end of a line joins it to what follows the
blanks and line ends behind. Up to two quotes may stand before the closing
ones. -/
def longBasicBody : (joining : Bool) → Reader Text
  | _, [] => none
  | joining, '\r' :: '\n' :: rest =>
    if joining then longBasicBody true rest else consChar '\n' (longBasicBody false rest)
  | joining, '\n' :: rest =>
    if joining then longBasicBody true rest else consChar '\n' (longBasicBody false rest)
  | _, '"' :: '"' :: '"' :: '"' :: '"' :: rest => some (['"', '"'], rest)
  | _, '"' :: '"' :: '"' :: '"' :: rest => some (['"'], rest)
  | _, '"' :: '"' :: '"' :: rest => some ([], rest)
  | _, '\\' :: 'u' :: a :: b :: c :: d :: rest =>
    (charOf? [a, b, c, d]).bind fun x => consChar x (longBasicBody false rest)
  | _, '\\' :: 'U' :: a :: b :: c :: d :: e :: f :: g :: h :: rest =>
    (charOf? [a, b, c, d, e, f, g, h]).bind fun x => consChar x (longBasicBody false rest)
  | _, '\\' :: c :: rest =>
    if endsLine (c :: rest) then longBasicBody true (c :: rest)
    else (escaped? c).bind fun x => consChar x (longBasicBody false rest)
  | joining, c :: rest =>
    if joining && isSpace c then longBasicBody true rest
    else if isPlain c then consChar c (longBasicBody false rest)
    else none

/-- What stands before the closing quote of a literal text. -/
def literalBody : Reader Text
  | [] => none
  | '\x27' :: rest => some ([], rest)
  | c :: rest => if isPlain c then consChar c (literalBody rest) else none

/-- What stands before the closing quotes of a literal text over several
lines. -/
def longLiteralBody : Reader Text
  | [] => none
  | '\r' :: '\n' :: rest => consChar '\n' (longLiteralBody rest)
  | '\n' :: rest => consChar '\n' (longLiteralBody rest)
  | '\x27' :: '\x27' :: '\x27' :: '\x27' :: '\x27' :: rest => some (['\x27', '\x27'], rest)
  | '\x27' :: '\x27' :: '\x27' :: '\x27' :: rest => some (['\x27'], rest)
  | '\x27' :: '\x27' :: '\x27' :: rest => some ([], rest)
  | c :: rest => if isPlain c then consChar c (longLiteralBody rest) else none

/-- The rest behind a line end that directly follows opening quotes. -/
def skipFirstLineEnd (t : Text) : Text :=
  match t with
  | '\n' :: rest | '\r' :: '\n' :: rest => rest
  | t => t

/-- A text in quotes of one of the four kinds. -/
def quoted? : Reader Text
  | '"' :: '"' :: '"' :: rest => longBasicBody false (skipFirstLineEnd rest)
  | '"' :: rest => basicBody rest
  | '\x27' :: '\x27' :: '\x27' :: rest => longLiteralBody (skipFirstLineEnd rest)
  | '\x27' :: rest => literalBody rest
  | _ => none

-- ======================================================================== keys

/-- What a key without quotes is made of. -/
def isBare (c : Char) : Bool := c.isAlphanum || c == '_' || c == '-'

/-- A key of one part. -/
def simpleKey? : Reader Text
  | '"' :: rest => basicBody rest
  | '\x27' :: rest => literalBody rest
  | t =>
    let bare := t.takeWhile isBare
    if bare.isEmpty then none else some (bare, t.dropWhile isBare)

/-- How deep keys and values may be nested. -/
def depthLimit : Nat := 79

/-- A key of several parts with points between them, up to a number of
parts. -/
def keyParts? : (most : Nat) → Reader (List Text)
  | 0, _ => none
  | most + 1, t =>
    match simpleKey? (skipSpaces t) with
    | none => none
    | some (part, rest) =>
      match skipSpaces rest with
      | '.' :: rest => (keyParts? most rest).map fun (parts, rest) => (part :: parts, rest)
      | rest => some ([part], rest)

/-- A key: the parts before the last one, and the last one. -/
def key? : Reader (List Text × Text) := fun t =>
  match keyParts? depthLimit t with
  | some (parts, rest) => parts.getLast?.map fun last => ((parts.dropLast, last), rest)
  | none => none

-- ===================================================================== numbers

/-- Digits of a base, with single low lines between them. -/
def digitRun (isDigit : Char → Bool) : Text → Text × Text
  | [] => ([], [])
  | '_' :: c :: rest =>
    if isDigit c then
      let (more, after) := digitRun isDigit rest
      (c :: more, after)
    else ([], '_' :: c :: rest)
  | c :: rest =>
    if isDigit c then
      let (more, after) := digitRun isDigit rest
      (c :: more, after)
    else ([], c :: rest)

/-- At least one digit of a base. -/
def digits? (isDigit : Char → Bool) : Reader Text
  | c :: rest => if isDigit c then some (digitRun isDigit (c :: rest)) else none
  | [] => none

/-- A sign, and whether it is a minus. -/
def sign : Text → Bool × Text
  | '-' :: rest => (true, rest)
  | '+' :: rest => (false, rest)
  | t => (false, t)

/-- The digits of a whole number; no zero leads others. -/
def whole? : Reader Text
  | '0' :: rest => some (['0'], rest)
  | t => digits? Char.isDigit t

/-- An integer that sixty-four bits hold. -/
def bounded? (n : Int) : Option Datum :=
  if -(UInt64.size / 2 : Nat) ≤ n ∧ n < (UInt64.size / 2 : Nat) then some (.integer n) else none

/-- An integer in a base with a sign for it in front. -/
def based? (base : Nat) (isDigit : Char → Bool) : Reader Datum := fun t =>
  (digits? isDigit t).bind fun (digits, rest) =>
    (bounded? (ofDigits base digits)).map fun d => (d, rest)

/-- An integer. -/
def integer? : Reader Datum
  | '0' :: 'x' :: t => based? 16 (fun c => (digitValue? c).isSome) t
  | '0' :: 'o' :: t => based? 8 (fun c => '0' ≤ c && c ≤ '7') t
  | '0' :: 'b' :: t => based? 2 (fun c => c == '0' || c == '1') t
  | t =>
    let (minus, body) := sign t
    (whole? body).bind fun (digits, rest) =>
      let n : Int := ofDigits 10 digits
      (bounded? (if minus then -n else n)).map fun d => (d, rest)

/-- The exponent of a number, if it has one. -/
def exponent? : Text → Option (Option Int × Text)
  | e :: t =>
    if e = 'e' ∨ e = 'E' then
      let (minus, body) := sign t
      (digits? Char.isDigit body).map fun (digits, rest) =>
        let n : Int := ofDigits 10 digits
        (some (if minus then -n else n), rest)
    else some (none, e :: t)
  | [] => some (none, [])

/-- The number `digits * 10 ^ exponent`, rounded. Where the first digit
stands tells when it is too large or too small to be told from infinity
or zero. -/
def numberOf (digits : Text) (exponent : Int) : Double :=
  let n := ofDigits 10 digits
  let first : Int := (Nat.toDigits 10 n).length + exponent
  if n = 0 ∨ first < -400 then 0.0
  else if 400 < first then .infinity
  else OfScientific.ofScientific n (exponent < 0) exponent.natAbs

/-- A number with a point or an exponent, or both. One that is too large is
refused, though not below zero. -/
def decimal? : Reader Datum := fun t =>
  let (minus, body) := sign t
  match whole? body with
  | none => none
  | some (digits, rest) =>
    let fraction : Option (Text × Text) :=
      match rest with
      | '.' :: rest => digits? Char.isDigit rest
      | rest => some ([], rest)
    fraction.bind fun (fraction, rest) =>
      (exponent? rest).bind fun (exponent, rest) =>
        if fraction = [] ∧ exponent = none then none
        else
          let x := numberOf (digits ++ fraction) (exponent.getD 0 - fraction.length)
          if minus then some (.number (-x), rest)
          else if x.isInf then none else some (.number x, rest)

/-- Infinity, or what is no number; either may have a minus. -/
def special? : Reader Datum := fun t =>
  let (minus, body) := sign t
  let signed (x : Double) : Datum := .number (if minus then -x else x)
  match body with
  | 'i' :: 'n' :: 'f' :: rest => some (signed .infinity, rest)
  | 'n' :: 'a' :: 'n' :: rest => some (signed .nan, rest)
  | _ => none

-- ===================================================================== moments

/-- A number of so many digits between two bounds. -/
def field? (count low high : Nat) : Reader Nat := fun t =>
  let digits := t.take count
  if digits.length = count ∧ digits.all Char.isDigit then
    let n := ofDigits 10 digits
    if low ≤ n ∧ n ≤ high then some (n, t.drop count) else none
  else none

/-- The days of a month. -/
def daysIn (year month : Nat) : Nat :=
  if month = 2 then
    if year % 4 = 0 ∧ (year % 100 ≠ 0 ∨ year % 400 = 0) then 29 else 28
  else if month = 4 ∨ month = 6 ∨ month = 9 ∨ month = 11 then 30
  else 31

/-- The rest behind a date. -/
def date? (t : Text) : Option Text := do
  let (year, t) ← field? 4 0 9999 t
  let (month, t) ← field? 2 1 12 (← Text.dropLead? ['-'] t)
  let (_, t) ← field? 2 1 (daysIn year month) (← Text.dropLead? ['-'] t)
  return t

/-- The rest behind a time of day. -/
def time? (t : Text) : Option Text := do
  let (_, t) ← field? 2 0 23 t
  let (_, t) ← field? 2 0 59 (← Text.dropLead? [':'] t)
  let (_, t) ← field? 2 0 60 (← Text.dropLead? [':'] t)
  match t with
  | '.' :: rest => if rest.head?.any Char.isDigit then some (rest.dropWhile Char.isDigit) else none
  | t => some t

/-- The rest behind the offset of a time, if there is one. -/
def skipOffset (t : Text) : Text :=
  match t with
  | c :: rest =>
    if c = 'Z' ∨ c = 'z' then rest
    else if c = '+' ∨ c = '-' then
      let found : Option Text := do
        let (_, t) ← field? 2 0 23 rest
        let (_, t) ← field? 2 0 59 (← Text.dropLead? [':'] t)
        return t
      found.getD t
    else t
  | [] => []

/-- A date, a time of day, or both. -/
def moment? : Reader Datum := fun t =>
  match date? t with
  | some rest =>
    match rest with
    | c :: after =>
      if c = 'T' ∨ c = 't' ∨ c = ' ' then
        match time? after with
        | some rest => some (.moment, skipOffset rest)
        | none => some (.moment, c :: after)
      else some (.moment, c :: after)
    | [] => some (.moment, [])
  | none => (time? t).map fun rest => (.moment, rest)

-- ===================================================================== scalars

/-- A value without parts. -/
def scalar? : Reader Datum
  | 't' :: 'r' :: 'u' :: 'e' :: rest => some (.flag true, rest)
  | 'f' :: 'a' :: 'l' :: 's' :: 'e' :: rest => some (.flag false, rest)
  | t =>
    if t.head?.any fun c => c == '"' || c == '\x27' then
      (quoted? t).map fun (text, rest) => (.text text, rest)
    else (((moment? t).or (decimal? t)).or (special? t)).or (integer? t)

end Toml

end SourceDigest
