/-
Imports of a Go text, as the scan reports them and as entities.

Two readers go over the same lines, each with a state that says whether a block
of imports is open. They tell the end of a block in different ways, and they make
sure in different ways that nothing comes twice. Both are in the same state
behind every line, and what the one names is what the other reports, cleaned
(`readLine_go`); so the same holds of all lines, whether blocks are closed or not
(`namesOf_readLines_go`). Outside of a block an entity must have a name, which is
why the paths are asked to leave one.
-/
import Mathlib
import SourceDigest.Imports.Scan
import SourceDigest.Proofs.Entities.Declarations
import SourceDigest.Proofs.Pattern.Runs

namespace SourceDigest

namespace Imports

open Pattern DeclarationRules
open Entity (byPatterns namesOf)

variable {ok : Char → Bool} {inBlock : Bool} {line : Text} {ls : List Text}

-- ==================================================================== one line

/-- A character behind the indent is found exactly when it is the first that is
no blank. -/
theorem isIn_indent_char (hok : ∀ c, ok c = true → Text.isBlank c = false)
    (line : Text) :
    (indent ++ char ok).isIn line = (Text.trimStart line).head?.any ok := by
  have hgap : ∀ c ∈ line.takeWhile Text.isBlank, Text.isBlank c = true :=
    fun c => List.mem_takeWhile_imp
  have hstop : ∀ c, (line.dropWhile Text.isBlank).head? = some c →
      Text.isBlank c = false := by
    intro c hc
    simpa [hc] using List.head?_dropWhile_not Text.isBlank line
  -- a blank is no such character, so no shorter indent will do
  have hrefuses : ∀ m l c u, Text.isBlank c = true →
      run (char ok) ⟨m, l, c :: u, []⟩ some = none := by
    intro m l c u hc
    refine run_char_neg fun d hd => ?_
    obtain rfl := Option.some.inj hd
    by_contra hd
    rw [hok c (by simpa using hd)] at hc
    cases hc
  have hanchored : IsAnchored (indent ++ char ok) :=
    (isAnchored_atStart.append _).append _
  have hend : endAt? (indent ++ char ok) (Place.start line)
      = run (many blank) ⟨0, none,
          line.takeWhile Text.isBlank ++ line.dropWhile Text.isBlank, []⟩
          fun e => run (char ok) e some := by
    rw [List.takeWhile_append_dropWhile]
    rfl
  rw [isIn_of_anchored hanchored, hend, blank, run_many_of_refuses hgap hstop hrefuses]
  unfold Text.trimStart Text.trimStartOf
  cases line.dropWhile Text.isBlank with
  | nil => rfl
  | cons c u =>
      rw [run_char_cons]
      cases hc : ok c <;> simp [hc]

/-- A line closes a block when it starts with a parenthesis, blanks apart. -/
theorem isIn_closes (line : Text) :
    (indent ++ ")").isIn line = ((Text.trimStart line).head? == some ')') := by
  have hone : (")" : Pattern) = char (· == ')') := rfl
  rw [hone, isIn_indent_char (fun c hc => by rw [beq_iff_eq] at hc; subst hc; rfl)]
  cases (Text.trimStart line).head? <;> rfl

/-- Both readers are in one state behind a line, and the one names what the
other reports. -/
theorem readLine_go (h : ∀ path ∈ (goLine inBlock line).1, cleanName path ≠ []) :
    (go.readLine inBlock line).2 = (goLine inBlock line).2
      ∧ namesOf .imported (go.readLine inBlock line).1.toList
        = (goLine inBlock line).1.map cleanName := by
  unfold goLine at h ⊢
  unfold readLine
  cases inBlock with
  | true =>
      simp only [go, if_true, isIn_closes] at h ⊢
      split
      · exact ⟨rfl, rfl⟩
      · cases (indent ++ goEntry).capture? 1 line <;> exact ⟨rfl, rfl⟩
  | false =>
      simp only [go, Bool.false_eq_true, if_false] at h ⊢
      split
      · exact ⟨rfl, rfl⟩
      · rename_i hopens
        rw [if_neg hopens] at h
        refine ⟨rfl, ?_⟩
        dsimp only at h ⊢
        rw [namesOf_declared?, List.findSome?_singleton]
        unfold entityBy?
        cases hcapture : (indent ++ spaced "import" ++ goEntry).capture? 1 line with
        | none => rfl
        | some path =>
            have hpath : cleanName path ≠ [] := h path (by simp [hcapture])
            have husable : isUsable .imported (cleanName path) = true :=
              isUsable_iff.2 ⟨hpath, fun hkind => absurd rfl hkind⟩
            dsimp only
            rw [if_pos husable]
            rfl

-- =================================================================== all lines

/-- Line by line. -/
theorem namesOf_readLines_go
    (h : ∀ path ∈ scanLines goLine inBlock ls, cleanName path ≠ []) :
    namesOf .imported (go.readLines inBlock ls)
      = (scanLines goLine inBlock ls).map cleanName := by
  induction ls generalizing inBlock with
  | nil => rfl
  | cons line ls ih =>
      rw [scanLines] at h ⊢
      obtain ⟨hstate, hnames⟩ :=
        readLine_go fun path hpath => h path (List.mem_append_left _ hpath)
      have hrest := ih fun path hpath => h path (List.mem_append_right _ hpath)
      rw [readLines_cons, Entity.namesOf_append, hnames, hstate, hrest, List.map_append]

/-- Where each import of a Go text has a path of which cleaning leaves something,
the imports among its entities are those that the scan reports, cleaned, each at
its first occurrence: on lines of their own, under another name or in blocks,
closed or not. -/
theorem namesOf_byPatterns_eq_scan {content : Text}
    (h : ∀ path ∈ scan .go content, cleanName path ≠ []) :
    namesOf .imported (byPatterns .go content)
      = firstOccurrences ((scan .go content).map cleanName) := by
  have hlines : ∀ path ∈ scanLines goLine false (Text.lines content),
      cleanName path ≠ [] := fun path hpath => h path (mem_firstOccurrences.2 hpath)
  calc namesOf .imported (byPatterns .go content)
      = firstOccurrences (namesOf .imported (go.readLines false (Text.lines content))) :=
        Entity.namesOf_firstOccurrences ..
    _ = firstOccurrences ((scanLines goLine false (Text.lines content)).map cleanName) := by
        rw [namesOf_readLines_go hlines]
    _ = firstOccurrences ((scan .go content).map cleanName) :=
        (firstOccurrences_map_firstOccurrences ..).symm

/-- A block that is never closed, with the start of another in it, behind a line
that imports by itself; the last entry differs from the first import by its
quotes. -/
theorem namesOf_byPatterns_of_unclosed_block :
    let content : Text :=
      "import \"fmt\"\nimport (\n\tlog \"x/log\"\nimport (\n\t\"'fmt'\"\nfunc f() \x7b\n"
    (∀ path ∈ scan .go content, cleanName path ≠ [])
      ∧ scan .go content = ["fmt", "x/log", "'fmt'"].map String.toList
      ∧ namesOf .imported (byPatterns .go content) = ["fmt", "x/log"].map String.toList := by
  intro content
  have hscan : scan .go content = ["fmt", "x/log", "'fmt'"].map String.toList := by
    decide +kernel
  have hpaths : ∀ path ∈ scan .go content, cleanName path ≠ [] := by
    rw [hscan]
    decide +kernel
  refine ⟨hpaths, hscan, ?_⟩
  rw [namesOf_byPatterns_eq_scan hpaths, hscan]
  decide +kernel

end Imports

end SourceDigest
