/-
What the statistics of a text add up to.

`Sums` ties statistics to the classes of the lines that they count: each
class is counted as often as it occurs, and no line declares more than one
thing. It is kept by every line (`Sums.addLine`), so it holds of all of
them whatever the classes are, and nothing has to be known of blocks and
documentation strings. Nesting is bounded in the same way by the opening
braces read so far (`Nesting.Within`); trimming a line loses none of them.
-/
import Mathlib
import SourceDigest.Lines.Stats
import SourceDigest.Proofs.Text.Blanks
import SourceDigest.Proofs.Text.Lines

namespace SourceDigest

theorem LineClass.length_ofLines (marks : CommentSyntax) (inside : Option Text)
    (ls : List Text) : (ofLines marks inside ls).length = ls.length := by
  induction ls generalizing inside with
  | nil => rfl
  | cons line ls ih => rw [ofLines, List.length_cons, List.length_cons, ih]

namespace LineStats

variable {s : LineStats} {language : Language} {classes : List LineClass}
  {n : Nesting} {k : Nat}

-- ===================================================================== counts

/-- Statistics of as many lines as there are classes. -/
structure Sums (classes : List LineClass) (s : LineStats) : Prop where
  total : s.total = classes.length
  code : s.code = classes.count .code
  comment : s.comment = classes.count .comment
  blank : s.blank = classes.count .blank
  declared : s.functions + s.classes + s.imports ≤ s.code

/-- A declaration is of one kind at most. -/
theorem addDeclaration_spec (s : LineStats) (kind : Option EntityKind) :
    let s' := s.addDeclaration kind
    s'.total = s.total ∧ s'.code = s.code ∧ s'.comment = s.comment
      ∧ s'.blank = s.blank
      ∧ s'.functions + s'.classes + s'.imports
        ≤ s.functions + s.classes + s.imports + 1 := by
  rcases kind with _ | kind
  · exact ⟨rfl, rfl, rfl, rfl, Nat.le_succ _⟩
  · cases kind <;> refine ⟨rfl, rfl, rfl, rfl, ?_⟩ <;> simp [addDeclaration] <;> omega

/-- A line adds one to the count of its class. -/
theorem Sums.addLine (h : Sums classes s) (language : Language) (line : Text)
    (c : LineClass) : Sums (classes ++ [c]) (s.addLine language line c) := by
  obtain ⟨htotal, hcode, hcomment, hblank, hdeclared⟩ := h
  cases c with
  | code =>
      obtain ⟨htotal', hcode', hcomment', hblank', hdeclared'⟩ :=
        addDeclaration_spec { s with total := s.total + 1, code := s.code + 1 }
          (Entity.kindOfLine? language line)
      unfold LineStats.addLine
      refine ⟨htotal'.trans ?_, hcode'.trans ?_, hcomment'.trans ?_,
        hblank'.trans ?_, ?_⟩
      · simp [htotal]
      · simp [hcode]
      · simp [hcomment]
      · simp [hblank]
      · rw [hcode']
        exact hdeclared'.trans (Nat.succ_le_succ hdeclared)
  | comment | blank =>
      constructor <;> simp [LineStats.addLine, htotal, hcode, hcomment, hblank]
      omega

/-- Line by line. -/
theorem Sums.addLines (h : Sums classes s) (language : Language)
    (ls : List (Text × LineClass)) :
    Sums (classes ++ ls.map Prod.snd)
      (ls.foldl (fun s l => s.addLine language l.1 l.2) s) := by
  induction ls generalizing classes s with
  | nil => simpa using h
  | cons l ls ih =>
      rw [List.map_cons, List.append_cons]
      exact ih (h.addLine language l.1 l.2)

/-- Every line is of one class. -/
theorem Sums.total_eq (h : Sums classes s) :
    s.total = s.code + s.comment + s.blank := by
  rw [h.total, h.code, h.comment, h.blank]
  clear h
  induction classes with
  | nil => rfl
  | cons c classes ih =>
      rw [List.length_cons, ih]
      cases c <;> simp <;> omega

-- ==================================================================== nesting

/-- Braces are nested no deeper than `k`, now or before. -/
def Nesting.Within (k : Nat) (n : Nesting) : Prop := n.depth ≤ k ∧ n.deepest ≤ k

/-- A character makes the nesting deeper if it is an opening brace. -/
theorem Nesting.Within.step (h : n.Within k) (c : Char) :
    (n.step c).Within (k + [c].count '\x7b') := by
  obtain ⟨hdepth, hdeepest⟩ := h
  unfold Nesting.step
  split
  · rename_i hopen
    simp [Within, hopen]
    omega
  · rename_i hopen
    rw [List.count_singleton, if_neg (by simpa using hopen)]
    split <;> simp [Within] <;> omega

/-- Only an opening brace lets them nest deeper. -/
theorem Nesting.Within.read (h : n.Within k) (t : Text) :
    (t.foldl Nesting.step n).Within (k + t.count '\x7b') := by
  induction t generalizing n k with
  | nil => exact h
  | cons c t ih =>
      have hrest := ih (h.step c)
      rw [Nat.add_assoc, ← List.count_append] at hrest
      exact hrest

-- ====================================================================== texts

/-- The lines that are code. -/
def codeLines (language : Language) (content : Text) : List Text :=
  ((classified language content).filter fun l => l.2 == .code).map Prod.fst

theorem map_snd_classified (language : Language) (content : Text) :
    (classified language content).map Prod.snd
      = LineClass.ofLines language.comments none (Text.lines content) :=
  List.map_snd_zip (LineClass.length_ofLines ..).le

/-- The counts are those of the classes of the lines. -/
theorem sums_collect (language : Language) (content : Text) :
    Sums ((classified language content).map Prod.snd) (collect language content) := by
  have h : Sums [] {} := ⟨rfl, rfl, rfl, rfl, Nat.le_refl _⟩
  have hlines := h.addLines language (classified language content)
  -- how deep braces nest is no count of lines
  exact ⟨hlines.total, hlines.code, hlines.comment, hlines.blank, hlines.declared⟩

/-- Every line of code is counted. -/
theorem code_collect (language : Language) (content : Text) :
    (collect language content).code = (codeLines language content).length := by
  rw [(sums_collect language content).code, codeLines, List.length_map,
    ← List.countP_eq_length_filter, List.count, List.countP_map]
  rfl

/-- Every line is counted. -/
theorem total_collect (language : Language) (content : Text) :
    (collect language content).total = (Text.lines content).length := by
  rw [(sums_collect language content).total, map_snd_classified,
    LineClass.length_ofLines]

/-- Nesting is no deeper than there are opening braces in code. -/
theorem maxDepth_collect_le (language : Language) (content : Text) :
    (collect language content).maxDepth
      ≤ ((codeLines language content).map (·.count '\x7b')).sum := by
  have hstart : Nesting.Within 0 {} := ⟨le_rfl, le_rfl⟩
  refine (hstart.read _).2.trans (le_of_eq ?_)
  rw [Nat.zero_add, List.count_flatten, List.map_map, codeLines, List.map_map]
  congr 1
  exact List.map_congr_left fun l _ => Text.count_trim (by decide) l.1

-- ================================================================== the whole

/-- Whatever bytes a file holds and whatever language it is taken for: the
lines that its record counts are those of its statistics, for its text has
the line feeds of its bytes. Each line is code, a comment or blank, no code
line declares more than one thing, and braces nest no deeper than there are
opening braces on code lines. -/
theorem line_counts_agree (path : Path) (bytes : Bytes) (language : Language) :
    let r := FileRecord.processed path bytes
    let s := collect language r.text
    r.lineCount = s.total
      ∧ r.text.count '\n' = bytes.count 0x0A
      ∧ s.total = s.code + s.comment + s.blank
      ∧ s.code = (codeLines language r.text).length
      ∧ s.functions + s.classes + s.imports ≤ s.code
      ∧ s.maxDepth ≤ ((codeLines language r.text).map (·.count '\x7b')).sum := by
  intro r s
  have hsums := sums_collect language r.text
  refine ⟨?_, Text.count_feed_ofBytes bytes, hsums.total_eq, code_collect ..,
    hsums.declared, maxDepth_collect_le ..⟩
  show countLines bytes = s.total
  rw [total_collect]
  exact (Text.length_lines_ofBytes bytes).symm

end LineStats

end SourceDigest
