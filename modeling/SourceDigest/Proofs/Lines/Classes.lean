/-
How the class of a line hangs on the lines before it.

All that a line is told by those before it is what closes the block it lies
in, if it lies in one (`LineClass.after`), so the classes of two texts in a
row are those of the first, and those of the second from where the first has
left off (`ofLines_append`). A block is opened by a block mark or by a triple
quote (`exists_of_opensBlock?`). The marks of the languages are clear
(`clear_comments`): no mark is empty, no blank stands in what closes a block,
and no mark of a line comment starts like a triple quote.
-/
import Mathlib
import SourceDigest.Proofs.Lines.Stats
import SourceDigest.Proofs.Text.Parts

namespace SourceDigest

namespace LineClass

variable {marks : CommentSyntax} {inside : Option Text}
  {closing line rest trimmed : Text} {ls ms : List Text}

-- ===================================================================== marks

/-- Marks that no line can take for something else. -/
structure Clear (marks : CommentSyntax) : Prop where
  opening : ∀ pair ∈ marks.block, pair.1 ≠ []
  closing : ∀ pair ∈ marks.block,
    pair.2 ≠ [] ∧ ∀ c ∈ pair.2, Text.isBlank c = false
  line : ∀ mark ∈ marks.line, mark ≠ []
    ∧ (marks.docstrings = true → ∀ quote ∈ tripleQuotes, mark.head? ≠ quote.head?)

theorem clear_comments (language : Language) : Clear language.comments where
  opening := by cases language <;> decide
  closing := by cases language <;> simp [Language.comments, Text.isBlank]
  line := by cases language <;> decide

/-- Triple quotes hold no blanks. -/
theorem clear_of_mem_tripleQuotes {quote : Text} (h : quote ∈ tripleQuotes) :
    quote ≠ [] ∧ ∀ c ∈ quote, Text.isBlank c = false := by
  have hall : ∀ quote ∈ tripleQuotes,
      quote ≠ [] ∧ ∀ c ∈ quote, Text.isBlank c = false := by
    simp [tripleQuotes, Text.isBlank]
  exact hall quote h

/-- A block is opened by its mark or by a triple quote. -/
theorem exists_of_opensBlock? (h : opensBlock? marks trimmed = some (closing, rest)) :
    (∃ opening, marks.block = some (opening, closing) ∧ trimmed = opening ++ rest)
      ∨ marks.docstrings = true ∧ closing ∈ tripleQuotes
        ∧ trimmed = closing ++ rest := by
  unfold opensBlock? at h
  dsimp only at h
  rcases Option.or_eq_some_iff.1 h with h | ⟨-, h⟩
  · obtain ⟨⟨opening, closing'⟩, hblock, h⟩ := Option.bind_eq_some_iff.1 h
    obtain ⟨rest', hrest, heq⟩ := Option.map_eq_some_iff.1 h
    obtain ⟨rfl, rfl⟩ := Prod.mk.inj heq
    exact .inl ⟨opening, hblock, Text.dropLead?_eq_some.1 hrest⟩
  · split at h
    · rename_i hdocstrings
      obtain ⟨quote, hquote, h⟩ := List.exists_of_findSome?_eq_some h
      obtain ⟨rest', hrest, heq⟩ := Option.map_eq_some_iff.1 h
      obtain ⟨rfl, rfl⟩ := Prod.mk.inj heq
      exact .inr ⟨hdocstrings, hquote, Text.dropLead?_eq_some.1 hrest⟩
    · cases h

/-- So where a block opens something is left, and its closing mark is clear
too. -/
theorem Clear.of_opensBlock? (hmarks : Clear marks)
    (h : opensBlock? marks trimmed = some (closing, rest)) :
    (closing ≠ [] ∧ ∀ c ∈ closing, Text.isBlank c = false)
      ∧ trimmed ≠ [] ∧ rest <:+ trimmed := by
  rcases exists_of_opensBlock? h with ⟨opening, hblock, rfl⟩ | ⟨-, hquote, rfl⟩
  · refine ⟨hmarks.closing _ hblock, ?_, List.suffix_append ..⟩
    exact List.append_ne_nil_of_left_ne_nil (hmarks.opening _ hblock) rest
  · have hclear := clear_of_mem_tripleQuotes hquote
    exact ⟨hclear, List.append_ne_nil_of_left_ne_nil hclear.1 rest,
      List.suffix_append ..⟩

-- ============================================================== single lines

/-- Inside a block every line is a comment, and the block ends with the first
that holds its mark. -/
theorem of_inside (hclosing : closing ≠ [])
    (hblank : ∀ c ∈ closing, Text.isBlank c = false) (line : Text) :
    of marks (some closing) line
      = (.comment, if Text.holds line closing then none else some closing) := by
  have htrim : Text.holds (Text.trim line) closing = Text.holds line closing := by
    rw [Bool.eq_iff_iff, Text.holds_iff, Text.holds_iff]
    exact Text.isInfix_trim_iff hclosing hblank
  rw [of, htrim]

/-- A line that opens a block is a comment, and the block goes on unless the
line holds its end as well. -/
theorem of_opens (hmarks : Clear marks)
    (h : opensBlock? marks (Text.trim line) = some (closing, rest)) :
    of marks none line
      = (.comment, if Text.holds rest closing then none else some closing) := by
  have hne := (hmarks.of_opensBlock? h).2.1
  unfold of
  dsimp only
  rw [if_neg (by simpa using hne), h]

/-- Behind a line that opens no block there is none. -/
theorem of_opens_none (h : opensBlock? marks (Text.trim line) = none) :
    (of marks none line).2 = none := by
  unfold of
  dsimp only
  split
  · rfl
  · rw [h]
    dsimp only
    split <;> rfl

/-- A line that starts with the mark of a line comment is a comment. -/
theorem of_line {mark : Text} (hmarks : Clear marks) (hmark : mark ∈ marks.line)
    (hstart : mark <+: Text.trim line)
    (h : opensBlock? marks (Text.trim line) = none) :
    of marks none line = (.comment, none) := by
  have hne : Text.trim line ≠ [] := by
    intro hnil
    rw [hnil, List.prefix_nil] at hstart
    exact (hmarks.line mark hmark).1 hstart
  have hany : marks.line.any (Text.startsWith (Text.trim line)) = true :=
    List.any_eq_true.2 ⟨mark, hmark, Text.dropLead?_isSome_iff.2 hstart⟩
  unfold of
  dsimp only
  rw [if_neg (by simpa using hne), h]
  exact if_pos hany

-- ============================================================= several lines

/-- What closes the block that the line behind some lines lies in. -/
def after (marks : CommentSyntax) (inside : Option Text) (ls : List Text) :
    Option Text :=
  ls.foldl (fun inside line => (of marks inside line).2) inside

theorem after_cons (marks : CommentSyntax) (inside : Option Text) (line : Text)
    (ls : List Text) :
    after marks inside (line :: ls) = after marks (of marks inside line).2 ls :=
  rfl

/-- Lines are read from where those before them left off. -/
theorem after_append (marks : CommentSyntax) (inside : Option Text)
    (ls ms : List Text) :
    after marks inside (ls ++ ms) = after marks (after marks inside ls) ms :=
  List.foldl_append

/-- The classes of two texts in a row. -/
theorem ofLines_append (marks : CommentSyntax) (inside : Option Text)
    (ls ms : List Text) :
    ofLines marks inside (ls ++ ms)
      = ofLines marks inside ls ++ ofLines marks (after marks inside ls) ms := by
  induction ls generalizing inside with
  | nil => rfl
  | cons line ls ih =>
      rw [List.cons_append, ofLines, ofLines, ih, after_cons, List.cons_append]

/-- The lines of a class. -/
def linesIn (c : LineClass) (marks : CommentSyntax) (inside : Option Text)
    (ls : List Text) : List Text :=
  ((ls.zip (ofLines marks inside ls)).filter fun l => l.2 == c).map Prod.fst

/-- The lines of a class are picked line by line. -/
theorem linesIn_cons (c : LineClass) (marks : CommentSyntax)
    (inside : Option Text) (line : Text) (ls : List Text) :
    linesIn c marks inside (line :: ls)
      = (if (of marks inside line).1 = c then [line] else [])
        ++ linesIn c marks (of marks inside line).2 ls := by
  unfold linesIn
  rw [ofLines, List.zip_cons_cons, List.filter_cons]
  by_cases h : (of marks inside line).1 = c
  · rw [if_pos h, if_pos (beq_iff_eq.2 h)]
    rfl
  · rw [if_neg h, if_neg (by simpa using h)]
    rfl

end LineClass

/-- The lines that are comments. -/
def LineStats.commentLines (language : Language) (content : Text) : List Text :=
  LineClass.linesIn .comment language.comments none (Text.lines content)

/-- Every line of comment is counted. -/
theorem LineStats.comment_collect (language : Language) (content : Text) :
    (collect language content).comment = (commentLines language content).length := by
  rw [(sums_collect language content).comment, commentLines, LineClass.linesIn,
    List.length_map, ← List.countP_eq_length_filter, List.count, List.countP_map]
  rfl

end SourceDigest
