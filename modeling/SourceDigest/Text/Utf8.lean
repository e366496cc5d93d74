/-
Texts as bytes in UTF-8, and bytes read as text.

The reader takes one byte at a time and remembers an unfinished
character. A byte that cannot go on with it closes it as malformed and
is then read afresh, so what is malformed is always a longest beginning
of some character, or a byte that begins none. Read strictly, one
malformed piece refuses the whole; read leniently, each becomes U+FFFD.
-/
import SourceDigest.Text.Basic

namespace SourceDigest

namespace Text

/-- The bytes of a text. -/
def toBytes (t : Text) : Bytes := t.flatMap String.utf8EncodeChar

/-- The number of bytes of a text. -/
def byteSize (t : Text) : Nat := t.foldr (fun c n => c.utf8Size + n) 0

namespace Utf8

/-- A character of which some bytes have been read. -/
structure Unfinished where
  /-- The value of the bytes read. -/
  value : Nat
  /-- How many bytes are still to come. -/
  missing : Nat
  /-- The least and the greatest byte that may come next. -/
  least : UInt8 := 0x80
  greatest : UInt8 := 0xBF

/-- What a byte read afresh amounts to. -/
inductive Lead where
  | char (c : Char)
  | opens (u : Unfinished)
  | malformed

/-- Reads the first byte of a character. -/
def lead (b : UInt8) : Lead :=
  if b < 0x80 then .char (Char.ofNat b.toNat)
  else if b < 0xC2 then .malformed
  else if b < 0xE0 then .opens { value := b.toNat - 0xC0, missing := 1 }
  else if b = 0xE0 then .opens { value := 0, missing := 2, least := 0xA0 }
  else if b = 0xED then .opens { value := 0xD, missing := 2, greatest := 0x9F }
  else if b < 0xF0 then .opens { value := b.toNat - 0xE0, missing := 2 }
  else if b = 0xF0 then .opens { value := 0, missing := 3, least := 0x90 }
  else if b < 0xF4 then .opens { value := b.toNat - 0xF0, missing := 3 }
  else if b = 0xF4 then .opens { value := 4, missing := 3, greatest := 0x8F }
  else .malformed

/-- Reads on after a possibly unfinished character; `none` stands for a
malformed piece. -/
def readFrom : Option Unfinished → Bytes → List (Option Char)
  | none, [] => []
  | some _, [] => [none]
  | some u, b :: rest =>
    if u.least ≤ b ∧ b ≤ u.greatest then
      let value := u.value * 64 + (b.toNat - 0x80)
      if u.missing ≤ 1 then some (Char.ofNat value) :: readFrom none rest
      else readFrom (some { value, missing := u.missing - 1 }) rest
    else
      match lead b with
      | .char c => none :: some c :: readFrom none rest
      | .opens v => none :: readFrom (some v) rest
      | .malformed => none :: none :: readFrom none rest
  | none, b :: rest =>
    match lead b with
    | .char c => some c :: readFrom none rest
    | .opens u => readFrom (some u) rest
    | .malformed => none :: readFrom none rest

/-- The characters and the malformed pieces of some bytes. -/
def read (bs : Bytes) : List (Option Char) := readFrom none bs

/-- What stands for a malformed piece. -/
def replacement : Char := '\uFFFD'

end Utf8

/-- The text of some bytes, unless a piece of them is malformed. -/
def ofBytes? (bs : Bytes) : Option Text :=
  let read := Utf8.read bs
  if read.all Option.isSome then some (read.filterMap id) else none

/-- The text of some bytes, with U+FFFD for each malformed piece. -/
def ofBytes (bs : Bytes) : Text := (Utf8.read bs).map (·.getD Utf8.replacement)

end Text

end SourceDigest
