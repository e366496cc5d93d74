/-
The document of a scan: all records of a repository, as plain text or as
data.

Processed records come in the order of their paths, first as a list and
then with their content; all others follow with the reason why they carry
none. Records with equal paths keep the order they are given in.
-/
import SourceDigest.Data.Basic
import SourceDigest.Record

namespace SourceDigest

/-- What a scan document is written as. -/
inductive DocumentFormat where
  | plain
  | json
deriving DecidableEq, Repr

/-- The records of a scan, put in order. -/
structure ScanDocument where
  root : Path
  /-- The number of all records. -/
  total : Nat
  kept : List FileRecord
  dropped : List FileRecord

namespace ScanDocument

/-- Records in the order of their paths. -/
def inOrder (rs : List FileRecord) : List FileRecord :=
  rs.mergeSort fun a b => Path.le a.path b.path

/-- The document of some records. -/
def ofRecords (root : Path) (rs : List FileRecord) : ScanDocument where
  root := root
  total := rs.length
  kept := inOrder (rs.filter (·.isProcessed))
  dropped := inOrder (rs.filter fun r => !r.isProcessed)

/-- The path of a record as seen from the root. -/
def shown (d : ScanDocument) (r : FileRecord) : Text := Path.relativeTo d.root r.path

-- ================================================================= plain text

def line (t : Text) : Text := t ++ ['\n']

/-- A kept record: its path and its content. -/
def plainRecord (d : ScanDocument) (r : FileRecord) : Text :=
  line ("--- " ++ d.shown r ++ (if r.summarized then " (summary) ---" else " ---")) ++
    line r.text ++ line []

/-- A dropped record: its path and the reason. -/
def plainDropped (d : ScanDocument) (r : FileRecord) : Text :=
  line (d.shown r ++ " (" ++ r.dropReason ++ ")")

/-- The document as plain text. -/
def plain (d : ScanDocument) : Text :=
  line ("=== REPOSITORY: " ++ d.root ++ " ===") ++ line ("Files: " ++ Text.ofNat d.total) ++
    line [] ++
    line "=== DIRECTORY STRUCTURE ===" ++ d.kept.flatMap (fun r => line (d.shown r)) ++ line [] ++
    d.kept.flatMap d.plainRecord ++
    if d.dropped = [] then [] else
      line "=== DROPPED FILES ===" ++ d.dropped.flatMap d.plainDropped

-- ======================================================================= data

open Datum

/-- The word for a kind of entity in data. -/
def kindWord : EntityKind → Text
  | .type => "Class"
  | .function => "Function"
  | .variable => "Variable"
  | .enum => "Enum"
  | .imported => "Import"
  | .other => "Other"

def entityDatum (e : Entity) : Datum :=
  object [("name", text e.name), ("type", text (kindWord e.kind))]

/-- A kept record; entities are listed when there are any. -/
def recordDatum (d : ScanDocument) (r : FileRecord) : Datum :=
  object ([
    ("path", text (d.shown r)),
    ("byte_size", nat r.byteSize),
    ("line_count", nat r.lineCount),
    ("summarized", flag r.summarized)] ++
    (if r.entities = [] then [] else [("entities", list (r.entities.map entityDatum))]) ++
    [("content", text r.text)])

/-- A dropped record. -/
def droppedDatum (d : ScanDocument) (r : FileRecord) : Datum := object [
  ("path", text (d.shown r)),
  ("byte_size", nat r.byteSize),
  ("reason", text r.dropReason)]

/-- The document as data. -/
def toDatum (d : ScanDocument) : Datum := object [
  ("root", text d.root),
  ("total_files", nat d.total),
  ("directory_structure", texts (d.kept.map d.shown)),
  ("files", list (d.kept.map d.recordDatum)),
  ("dropped_files", list (d.dropped.map d.droppedDatum))]

end ScanDocument

end SourceDigest
