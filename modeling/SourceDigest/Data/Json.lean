/-
Data as JSON text, one item or field to a line, two blanks deeper for each
level.

Numbers have the fewest digits that read back and always a point or an
exponent: the point stands where it belongs from `0.00001` up to sixteen
digits in front of it, otherwise an exponent follows the first digit. What
is not finite has no form and becomes `null`, and so does a moment.
-/
import SourceDigest.Data.Basic
import SourceDigest.Data.Shortest

namespace SourceDigest

namespace Json

-- ===================================================================== numbers

/-- The decimal digits of an integer. -/
def integerText (n : Int) : Text :=
  if n < 0 then '-' :: Text.ofNat n.natAbs else Text.ofNat n.natAbs

/-- The most digits in front of a point. -/
def wholeDigits : Int := 16

/-- The most zeros, less one, that lead a number below one. -/
def leadingZeros : Int := 5

/-- A decimal number as it is written. -/
def decimalText (d : Decimal) : Text :=
  let digits := Text.ofNat d.digits
  let point : Int := digits.length + d.exponent
  if 0 ≤ d.exponent ∧ point ≤ wholeDigits then
    digits ++ List.replicate d.exponent.toNat '0' ++ ".0"
  else if 0 < point ∧ point ≤ wholeDigits then
    digits.take point.toNat ++ '.' :: digits.drop point.toNat
  else if -leadingZeros < point ∧ point ≤ 0 then
    "0." ++ List.replicate (-point).toNat '0' ++ digits
  else
    digits.take 1 ++ (if digits.length = 1 then [] else '.' :: digits.drop 1) ++
      'e' :: integerText (point - 1)

/-- A number as it is written, if it is finite. -/
def numberText? (x : Double) : Option Text :=
  if !x.isFinite then none
  else
    let sign : Text := if x.isNegative then ['-'] else []
    some (sign ++ if x.size = 0 then ("0.0" : Text) else decimalText (Decimal.ofBits x.size))

-- ======================================================================= texts

/-- A character inside quotes. -/
def quotedChar (c : Char) : Text :=
  match c with
  | '"' => "\\\""
  | '\\' => "\\\\"
  | '\n' => "\\n"
  | '\r' => "\\r"
  | '\t' => "\\t"
  | '\x08' => "\\b"
  | '\x0c' => "\\f"
  | c =>
    if c.toNat < 0x20 then
      "\\u00" ++ [Nat.digitChar (c.toNat / 16), Nat.digitChar (c.toNat % 16)]
    else [c]

/-- A text in quotes. -/
def quoted (t : Text) : Text := '"' :: t.flatMap quotedChar ++ ['"']

-- ====================================================================== layout

/-- A new line with blanks for a level. -/
def newLine (level : Nat) : Text := '\n' :: List.replicate (2 * level) ' '

/-- Some pieces between brackets, each on a line of its own. -/
def bracketed (opening closing : Char) (level : Nat) (pieces : List Text) : Text :=
  if pieces = [] then [opening, closing]
  else
    [opening] ++ newLine (level + 1) ++ Text.join (',' :: newLine (level + 1)) pieces ++
      newLine level ++ [closing]

end Json

namespace Datum

open Json

mutual
/-- A value as JSON text on a level. -/
def json (level : Nat) : Datum → Text
  | null | moment => "null"
  | flag b => if b then "true" else "false"
  | integer n => integerText n
  | number x => (numberText? x).getD "null"
  | text t => quoted t
  | list items => bracketed '[' ']' level (jsonItems (level + 1) items)
  | table fields => bracketed '\x7b' '\x7d' level (jsonFields (level + 1) fields)

/-- The items of a list. -/
def jsonItems (level : Nat) : List Datum → List Text
  | [] => []
  | d :: rest => json level d :: jsonItems level rest

/-- The fields of a table. -/
def jsonFields (level : Nat) : List (Text × Datum) → List Text
  | [] => []
  | (name, d) :: rest => (quoted name ++ ": " ++ json level d) :: jsonFields level rest
end

/-- A value as a JSON text of its own. -/
def toJson (d : Datum) : Text := d.json 0

end Datum

end SourceDigest
