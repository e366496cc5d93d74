/-
TOML: values with parts, and whole documents.

A document is a list of lines that set keys or open tables. While it is
read, each table keeps in mind what made it: its own header, the header of
a table below it, or a key with points in it. Only some of these may be
gone into again, and no key is set twice.
-/
import SourceDigest.Data.Toml.Scalar

namespace SourceDigest

namespace Toml

-- ====================================================================== tables

/-- What made a table. -/
inductive Origin where
  /-- Its own header. -/
  | header
  /-- The header of a table below it. -/
  | implied
  /-- A key with points in it. -/
  | dotted
deriving DecidableEq, Repr

/-- What stands under a key. -/
inductive Entry where
  | value (d : Datum)
  | table (origin : Origin) (fields : List (Text × Entry))
  /-- Tables with one header each, the last one first. -/
  | tables (last : List (Text × Entry)) (earlier : List (List (Text × Entry)))

/-- The entries of a table in the order they were made. -/
abbrev Fields := List (Text × Entry)

mutual
/-- An entry as a value. -/
def Entry.toDatum : Entry → Datum
  | .value d => d
  | .table _ fields => .table (fieldsDatum fields)
  | .tables last earlier => .list ((.table (fieldsDatum last) :: tablesDatum earlier).reverse)

/-- The values under the keys of a table. -/
def fieldsDatum : Fields → List (Text × Datum)
  | [] => []
  | (key, e) :: rest => (key, e.toDatum) :: fieldsDatum rest

/-- Several tables as values. -/
def tablesDatum : List Fields → List Datum
  | [] => []
  | fields :: rest => .table (fieldsDatum fields) :: tablesDatum rest
end

/-- Puts an entry under a key, in place of what stands there. -/
def set (key : Text) (e : Entry) : Fields → Fields
  | [] => [(key, e)]
  | f :: rest => if f.1 = key then (key, e) :: rest else f :: set key e rest

/-- Sets a key behind points. The tables before the points are made where
they are missing. A table with a header of its own is not gone into, and
the one that takes the key must be made by such keys. -/
def setKey (value : Datum) (key : Text) : (path : List Text) → Fields → Option Fields
  | [], fields =>
    if (fields.lookup key).isSome then none else some (fields ++ [(key, .value value)])
  | part :: path, fields =>
    match fields.lookup part with
    | none => (setKey value key path []).map fun inner => fields ++ [(part, .table .dotted inner)]
    | some (.table .dotted inner) =>
      (setKey value key path inner).map fun inner => set part (.table .dotted inner) fields
    | some (.table .implied inner) =>
      if path = [] then none
      else (setKey value key path inner).map fun inner => set part (.table .implied inner) fields
    | some (.tables last earlier) =>
      if path = [] then none
      else (setKey value key path last).map fun last => set part (.tables last earlier) fields
    | some (.table .header _) | some (.value _) => none

/-- Changes the table at a path, which stands for the last of several
tables where there are several. Tables that are missing are implied. -/
def within (change : Fields → Option Fields) : (path : List Text) → Fields → Option Fields
  | [], fields => change fields
  | part :: path, fields =>
    match fields.lookup part with
    | none => (within change path []).map fun inner => fields ++ [(part, .table .implied inner)]
    | some (.table origin inner) =>
      (within change path inner).map fun inner => set part (.table origin inner) fields
    | some (.tables last earlier) =>
      (within change path last).map fun last => set part (.tables last earlier) fields
    | some (.value _) => none

/-- Opens a table by its header, which no other header or key has made. -/
def openTable (key : Text) (fields : Fields) : Option Fields :=
  match fields.lookup key with
  | none => some (fields ++ [(key, .table .header [])])
  | some (.table .implied inner) => some (set key (.table .header inner) fields)
  | some _ => none

/-- Opens one more of several tables. -/
def openOneMore (key : Text) (fields : Fields) : Option Fields :=
  match fields.lookup key with
  | none => some (fields ++ [(key, .tables [] [])])
  | some (.tables last earlier) => some (set key (.tables [] (last :: earlier)) fields)
  | some _ => none

-- ====================================================================== values

mutual
/-- A value, up to a depth. `fuel` bounds the steps. -/
def value? : (fuel depth : Nat) → Reader Datum
  | 0, _, _ => none
  | fuel + 1, depth, t =>
    match t, depth with
    | '[' :: rest, depth + 1 =>
      (items? fuel depth (skipLines false rest)).map fun (items, rest) => (.list items, rest)
    | '\x7b' :: rest, depth + 1 =>
      match skipSpaces rest with
      | '\x7d' :: rest => some (.table [], rest)
      | rest =>
        (fields? fuel depth [] rest).map fun (fields, rest) => (.table (fieldsDatum fields), rest)
    | '[' :: _, 0 | '\x7b' :: _, 0 => none
    | t, _ => scalar? t

/-- The items of a list up to its closing bracket; a comma may follow the
last one. -/
def items? : (fuel depth : Nat) → Reader (List Datum)
  | 0, _, _ => none
  | fuel + 1, depth, t =>
    match t with
    | ']' :: rest => some ([], rest)
    | t =>
      match value? fuel depth t with
      | none => none
      | some (item, rest) =>
        match skipLines false rest with
        | ',' :: rest =>
          (items? fuel depth (skipLines false rest)).map fun (items, rest) => (item :: items, rest)
        | ']' :: rest => some ([item], rest)
        | _ => none

/-- The fields of a table in braces up to the closing one. -/
def fields? : (fuel depth : Nat) → (made : Fields) → Reader Fields
  | 0, _, _, _ => none
  | fuel + 1, depth, made, t =>
    match key? t with
    | some ((path, key), '=' :: rest) =>
      match value? fuel depth (skipSpaces rest) with
      | none => none
      | some (value, rest) =>
        match setKey value key path made with
        | none => none
        | some made =>
          match skipSpaces rest with
          | ',' :: rest => fields? fuel depth made rest
          | '\x7d' :: rest => some (made, rest)
          | _ => none
    | _ => none
end

-- =================================================================== documents

/-- What has been read, and the path of the table that is open. -/
structure Draft where
  fields : Fields := []
  opened : List Text := []

/-- Reads a header behind its brackets; `open_` opens the table. -/
def header? (open_ : Text → Fields → Option Fields) (closing : Text) (d : Draft) (t : Text) :
    Option (Draft × Text) :=
  match key? t with
  | none => none
  | some ((path, key), rest) =>
    match (Text.dropLead? closing rest).bind restOfLine? with
    | none => none
    | some rest =>
      (within (open_ key) path d.fields).map fun fields => (⟨fields, path ++ [key]⟩, rest)

/-- Reads a line that sets a key. -/
def setting? (d : Draft) (t : Text) : Option (Draft × Text) :=
  match key? t with
  | some ((path, key), '=' :: rest) =>
    match value? (2 * t.length + 4) depthLimit (skipSpaces rest) with
    | none => none
    | some (value, rest) =>
      match restOfLine? rest with
      | none => none
      | some rest =>
        (within (setKey value key path) d.opened d.fields).map fun fields =>
          ({ d with fields }, rest)
  | _ => none

/-- Reads the lines of a document. `fuel` bounds their number. -/
def lines? : (fuel : Nat) → Draft → Text → Option Draft
  | 0, _, _ => none
  | fuel + 1, d, t =>
    match skipSpaces t with
    | [] => some d
    | '[' :: '[' :: rest => (header? openOneMore "]]" d rest).bind fun (d, t) => lines? fuel d t
    | '[' :: rest => (header? openTable "]" d rest).bind fun (d, t) => lines? fuel d t
    | t =>
      if t.head?.any fun c => c == '#' || c == '\n' || c == '\r' then
        (restOfLine? t).bind fun rest => lines? fuel d rest
      else (setting? d t).bind fun (d, t) => lines? fuel d t

/-- The table that a document says. -/
def read? (t : Text) : Option Datum :=
  let t := if t.head? == some '\uFEFF' then t.drop 1 else t
  (lines? (t.length + 1) {} t).map fun d => .table (fieldsDatum d.fields)

end Toml

end SourceDigest
