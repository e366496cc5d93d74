/-
Text as a list of characters, and the small operations on it that the
rest of the library speaks in: lines, splitting and joining, trimming,
searching.

# Lines

A line ends at a line feed, which is not part of it, and neither is one
carriage return just before that line feed. What follows the last line
feed is a line of its own only when it holds a character, so the empty
text has no line and a final line feed opens none.

# Blank characters

Blank means Unicode white space: twenty-five characters, listed in
`isBlank`.
-/

namespace SourceDigest

/-- A text is the list of its characters. -/
abbrev Text := List Char

/-- String literals are texts. -/
instance : Coe String Text := ⟨String.toList⟩

/-- The content of a file as it is stored. -/
abbrev Bytes := List UInt8

namespace Text

-- ========================================================= blank characters

/-- White space, in ASCII and beyond. -/
def isBlank (c : Char) : Bool :=
  let n := c.toNat
  (0x09 ≤ n && n ≤ 0x0D) || n == 0x20 || n == 0x85 || n == 0xA0 || n == 0x1680
    || (0x2000 ≤ n && n ≤ 0x200A) || n == 0x2028 || n == 0x2029 || n == 0x202F
    || n == 0x205F || n == 0x3000

/-- The text without the leading characters that satisfy `p`. -/
def trimStartOf (p : Char → Bool) (t : Text) : Text := t.dropWhile p

/-- The text without the trailing characters that satisfy `p`. -/
def trimEndOf (p : Char → Bool) (t : Text) : Text := (t.reverse.dropWhile p).reverse

/-- The text without the characters that satisfy `p` at either end. -/
def trimOf (p : Char → Bool) (t : Text) : Text := trimEndOf p (trimStartOf p t)

def trimStart (t : Text) : Text := trimStartOf isBlank t

def trimEnd (t : Text) : Text := trimEndOf isBlank t

/-- The text without blanks at either end. -/
def trim (t : Text) : Text := trimOf isBlank t

-- ==================================================================== lines

/-- The lines of a text, without their ends. -/
def lines : Text → List Text
  | [] => []
  | '\n' :: rest => [] :: lines rest
  | '\r' :: '\n' :: rest => [] :: lines rest
  | c :: rest =>
    match lines rest with
    | [] => [[c]]
    | line :: more => (c :: line) :: more

-- ==================================================== splitting and joining

/-- The pieces between occurrences of a character; there is always at
least one. -/
def splitOn (sep : Char) : Text → List Text
  | [] => [[]]
  | c :: rest =>
    if c = sep then [] :: splitOn sep rest
    else
      match splitOn sep rest with
      | [] => [[c]]
      | piece :: more => (c :: piece) :: more

/-- The pieces one after the other, with `sep` between neighbours. -/
def join (sep : Text) : List Text → Text
  | [] => []
  | [piece] => piece
  | piece :: more => piece ++ sep ++ join sep more

/-- What stands before the first occurrence of a character, or all of the
text. -/
def before (sep : Char) (t : Text) : Text := t.takeWhile (· ≠ sep)

/-- What stands before the last occurrence of a character and what stands
after it. -/
def splitLast? (sep : Char) (t : Text) : Option (Text × Text) :=
  if t.contains sep then
    some ((t.reverse.dropWhile (· ≠ sep)).tail.reverse, (t.reverse.takeWhile (· ≠ sep)).reverse)
  else none

/-- What stands after the last occurrence of a character, or all of the
text. -/
def afterLast (sep : Char) (t : Text) : Text := (t.reverse.takeWhile (· ≠ sep)).reverse

-- ================================================================ searching

/-- The text without `lead` in front. -/
def dropLead? : (lead t : Text) → Option Text
  | [], t => some t
  | _ :: _, [] => none
  | a :: lead, b :: t => if a = b then dropLead? lead t else none

/-- Whether the text begins with `lead`. -/
def startsWith (t lead : Text) : Bool := (dropLead? lead t).isSome

/-- The text without `tail` at the end. -/
def dropTail? (tail t : Text) : Option Text :=
  (dropLead? tail.reverse t.reverse).map List.reverse

/-- Whether the text ends with `tail`. -/
def endsWith (t tail : Text) : Bool := (dropTail? tail t).isSome

/-- What stands before the first occurrence of `needle` and what stands
after it. -/
def cut? (needle : Text) : Text → Option (Text × Text)
  | [] => if needle.isEmpty then some ([], []) else none
  | c :: rest =>
    match dropLead? needle (c :: rest) with
    | some tail => some ([], tail)
    | none => (cut? needle rest).map fun found => (c :: found.1, found.2)

/-- Whether `needle` occurs in the text. -/
def holds (t needle : Text) : Bool := (cut? needle t).isSome

-- ================================================================ replacing

/-- Every occurrence of one character becomes another. -/
def replace (old new : Char) (t : Text) : Text := t.map fun c => if c = old then new else c

/-- ASCII letters in lower case, all else as it is. -/
def lowerAscii (t : Text) : Text := t.map Char.toLower

/-- Equality up to the case of ASCII letters. -/
def sameAscii (s t : Text) : Bool := lowerAscii s == lowerAscii t

-- ==================================================================== order

/-- Whether a text comes before another or equals it, by code points. -/
def le : Text → Text → Bool
  | [], _ => true
  | _ :: _, [] => false
  | a :: s, b :: t => a.val < b.val || (a == b && le s t)

-- ================================================================== numbers

/-- The decimal digits of a natural number. -/
def ofNat (n : Nat) : Text := Nat.toDigits 10 n

end Text

end SourceDigest
