/-
Tape archives as file systems.

An archive is a run of blocks of 512 bytes. A member is a header block and
as many blocks as its body needs; a block that starts with a zero byte
ends the archive. Long names stand in the body of a member in front: on
their own, or as named records of which only `path` and `linkpath` are
looked at.

What cannot be made out is passed over, and so is what is neither a file,
a directory nor a link. The root of the file system is the directory that
was packed, and so is the working directory.
-/
import SourceDigest.Files.Tree

namespace SourceDigest

namespace Archive

/-- The bytes of a block. -/
def blockSize : Nat := 512

/-- What a member is, by the byte that tells it. -/
inductive MemberKind where
  | file
  | hardLink
  | symbolicLink
  | directory
  /-- The body is the name of the member behind. -/
  | longName
  /-- The body is the link target of the member behind. -/
  | longTarget
  /-- The body holds named records about the member behind. -/
  | records
  | other
deriving DecidableEq, Repr

/-- The kind that a byte tells. -/
def MemberKind.ofByte (b : UInt8) : MemberKind :=
  match Char.ofNat b.toNat with
  | '\x00' | '0' | '7' => file
  | '1' => hardLink
  | '2' => symbolicLink
  | '5' => directory
  | 'L' => longName
  | 'K' => longTarget
  | 'x' => records
  | _ => other

-- ==================================================================== headers

/-- The bytes of a field of a block. -/
def field (start length : Nat) (block : Bytes) : Bytes := (block.drop start).take length

/-- The text in front of the first zero byte. -/
def textField (bs : Bytes) : Text := Text.ofBytes (bs.takeWhile (· ≠ 0))

/-- A number in octal digits between blanks, or, behind a byte with its
highest bit set, in bytes. -/
def numberField (bs : Bytes) : Nat :=
  match bs with
  | b :: rest =>
    if b ≥ 0x80 then rest.foldl (fun n b => 256 * n + b.toNat) 0
    else
      ((bs.dropWhile (· = 0x20)).takeWhile fun b => 0x30 ≤ b && b ≤ 0x37).foldl
        (fun n b => 8 * n + (b.toNat - 0x30)) 0
  | [] => 0

/-- What a header says of its member. -/
structure Header where
  name : Text
  kind : MemberKind
  size : Nat
  modified : Nat
  target : Text

/-- The header in a block. -/
def Header.ofBlock (block : Bytes) : Header where
  name :=
    let name := textField (field 0 100 block)
    let isUstar := field 257 5 block = Text.toBytes "ustar"
    let above := if isUstar then textField (field 345 155 block) else []
    if above = [] then name else above ++ '/' :: name
  kind := .ofByte ((block[156]?).getD 0)
  size := numberField (field 124 12 block)
  modified := numberField (field 136 12 block)
  target := textField (field 157 100 block)

-- ==================================================================== members

/-- What the members in front have said about the next one. -/
structure Ahead where
  name : Option Text := none
  target : Option Text := none

/-- The decimal digits at the start of some bytes. -/
def leadingDigits (bs : Bytes) : Bytes := bs.takeWhile fun b => 0x30 ≤ b && b ≤ 0x39

/-- The length that a named record gives itself. -/
def recordLength (bs : Bytes) : Nat :=
  (leadingDigits bs).foldl (fun n b => 10 * n + (b.toNat - 0x30)) 0

/-- Takes note of one named record. -/
def Ahead.note (ahead : Ahead) (bs : Bytes) : Ahead :=
  let named := Text.ofBytes (bs.drop ((leadingDigits bs).length + 1)).dropLast
  let key := Text.before '=' named
  let value := named.drop (key.length + 1)
  if key = "path".toList then { ahead with name := some value }
  else if key = "linkpath".toList then { ahead with target := some value }
  else ahead

/-- Takes note of some named records; each gives its length, its name and
its value. -/
def Ahead.ofRecords (ahead : Ahead) (body : Bytes) : Ahead :=
  if _h : 0 < recordLength body ∧ recordLength body ≤ body.length then
    (ahead.note (body.take (recordLength body))).ofRecords (body.drop (recordLength body))
  else ahead
termination_by body.length
decreasing_by rw [List.length_drop]; omega

/-- The names of the place that a name stands for. -/
def placeOf (name : Text) : List Text :=
  (Text.splitOn '/' name).filter fun part => part ≠ [] && part ≠ ['.'] && part ≠ ['.', '.']

/-- A file system with one more node. -/
def place (name : Text) (n : FileNode) (fs : FileSystem) : FileSystem :=
  { fs with top := FileNode.put n (placeOf name) fs.top }

/-- A file system with the member of a header. -/
def placeMember (h : Header) (body : Bytes) (fs : FileSystem) : FileSystem :=
  match h.kind with
  | .file => place h.name (.file body h.modified) fs
  | .symbolicLink => place h.name (.link h.target) fs
  | .directory =>
    match fs.entries ('/' :: h.name) with
    | .ok _ => fs
    | .error _ => place h.name (.directory []) fs
  | .hardLink =>
    match fs.find ('/' :: h.target) with
    | .ok n => place h.name n fs
    | .error _ => fs
  | _ => fs

/-- The blocks of a body, in bytes. -/
def paddedSize (size : Nat) : Nat := (size + blockSize - 1) / blockSize * blockSize

/-- What a member says of the next one, and the file system with the
member. -/
def takeMember (ahead : Ahead) (h : Header) (body : Bytes) (fs : FileSystem) :
    Ahead × FileSystem :=
  match h.kind with
  | .longName => ({ ahead with name := some (textField body) }, fs)
  | .longTarget => ({ ahead with target := some (textField body) }, fs)
  | .records => (ahead.ofRecords body, fs)
  | _ =>
    let named := { h with
      name := ahead.name.getD h.name, target := ahead.target.getD h.target }
    ({}, placeMember named body fs)

/-- A file system with the members of an archive. -/
def placeMembers (ahead : Ahead) (bs : Bytes) (fs : FileSystem) : FileSystem :=
  if _h : bs.length < blockSize then fs
  else if bs.head? = some 0 then fs
  else
    let header := Header.ofBlock (bs.take blockSize)
    let rest := bs.drop blockSize
    let (ahead, fs) := takeMember ahead header (rest.take header.size) fs
    placeMembers ahead (rest.drop (paddedSize header.size)) fs
termination_by bs.length
decreasing_by
  have hb : 0 < blockSize := by decide
  rw [List.length_drop, List.length_drop]
  omega

end Archive

/-- The file system that an archive packs. -/
def FileSystem.ofArchive (bs : Bytes) : FileSystem := Archive.placeMembers {} bs ⟨[], []⟩

end SourceDigest
