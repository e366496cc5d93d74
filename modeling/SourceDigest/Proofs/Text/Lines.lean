/-
Lines of a text and of the bytes it was read from.

A text is taken apart at its line feeds: what stands before the first is a
line, less a carriage return at its end (`lines_append_feed`), and what
stands behind the last is a line unless it is empty (`lines_of_notMem`), so
a text that ends with a line feed leaves the lines behind it whole
(`lines_append`). Bytes are counted in the same way
(`countLines_append_feed`, `countLines_of_notMem`), and reading them as text
keeps the places of the line feeds, so both come to the same number
(`length_lines_ofBytes`). All of it is one induction, over the pieces between
line feeds (`piecewise_induction`).
-/
import Mathlib
import SourceDigest.Record
import SourceDigest.Proofs.Text.Utf8

namespace SourceDigest

/-- What holds of a list without a separator, and of one with a further piece
in front if it holds without that, holds of every list. -/
@[elab_as_elim]
theorem piecewise_induction {α : Type} [DecidableEq α] (sep : α)
    {motive : List α → Prop} (last : ∀ piece, sep ∉ piece → motive piece)
    (more : ∀ piece rest, sep ∉ piece → motive rest →
      motive (piece ++ sep :: rest)) (xs : List α) : motive xs := by
  -- generalised to a piece that has been begun
  suffices h : ∀ piece, sep ∉ piece → motive (piece ++ xs) from h [] (by simp)
  induction xs with
  | nil => exact fun piece hpiece => by simpa using last piece hpiece
  | cons x xs ih =>
      intro piece hpiece
      by_cases hx : x = sep
      · rw [hx]
        exact more piece xs hpiece (ih [] (by simp))
      · rw [List.append_cons]
        refine ih (piece ++ [x]) ?_
        simp [hpiece, Ne.symm hx]

namespace Text

variable {t line : Text} {bs : Bytes}

-- ====================================================================== lines

/-- A line without the carriage return at its end. -/
def withoutReturn (line : Text) : Text :=
  if line.getLast? = some '\r' then line.dropLast else line

theorem withoutReturn_cons {c : Char} (hline : line ≠ []) :
    withoutReturn (c :: line) = c :: withoutReturn line := by
  obtain ⟨d, line, rfl⟩ := List.exists_cons_of_ne_nil hline
  unfold withoutReturn
  rw [List.getLast?_cons_cons]
  split <;> rfl

/-- A character in front that ends no line. -/
theorem lines_cons {c : Char} (hc : c ≠ '\n') (hcr : c = '\r' → t.head? ≠ some '\n') :
    lines (c :: t) = match lines t with
      | [] => [[c]]
      | line :: more => (c :: line) :: more := by
  have hpair : ∀ rest, c = '\r' → t = '\n' :: rest → False := by
    rintro rest rfl rfl
    exact hcr rfl rfl
  exact lines.eq_4 c t hc hpair

/-- What holds no line feed is a line, unless it is empty. -/
theorem lines_of_notMem (h : '\n' ∉ t) : lines t = if t = [] then [] else [t] := by
  induction t with
  | nil => rfl
  | cons c t ih =>
      obtain ⟨hc, ht⟩ := not_or.1 (mt List.mem_cons.2 h)
      rw [lines_cons (Ne.symm hc), ih ht]
      · by_cases hnil : t = []
        · simp [hnil]
        · simp [hnil]
      · exact fun _ hhead => ht (List.mem_of_mem_head? hhead)

/-- What stands before the first line feed is the first line. -/
theorem lines_append_feed (h : '\n' ∉ line) (rest : Text) :
    lines (line ++ '\n' :: rest) = withoutReturn line :: lines rest := by
  induction line with
  | nil => rfl
  | cons c line ih =>
      obtain ⟨hc, hline⟩ := not_or.1 (mt List.mem_cons.2 h)
      by_cases hnil : line = []
      · subst hnil
        by_cases hcr : c = '\r'
        · subst hcr
          rfl
        · rw [List.singleton_append, lines_cons (Ne.symm hc) (absurd · hcr)]
          simp [lines, withoutReturn, hcr]
      · rw [List.cons_append, lines_cons (Ne.symm hc), ih hline,
          withoutReturn_cons hnil]
        intro _ hhead
        rw [List.head?_append_of_ne_nil _ hnil] at hhead
        exact hline (List.mem_of_mem_head? hhead)

theorem withoutReturn_isPrefix (line : Text) : withoutReturn line <+: line := by
  unfold withoutReturn
  split
  · exact List.dropLast_prefix line
  · exact List.prefix_rfl

/-- No line holds a line feed. -/
theorem feed_notMem_of_mem_lines (h : line ∈ lines t) : '\n' ∉ line := by
  induction t using piecewise_induction '\n' with
  | last piece hpiece =>
      rw [lines_of_notMem hpiece] at h
      split at h
      · cases h
      · rwa [List.mem_singleton.1 h]
  | more piece rest hpiece ih =>
      rw [lines_append_feed hpiece] at h
      rcases List.mem_cons.1 h with rfl | h
      · exact fun hmem => hpiece ((withoutReturn_isPrefix piece).subset hmem)
      · exact ih h

/-- Behind a line feed another text begins with a line of its own. -/
theorem lines_append (h : t.getLast? = some '\n') (u : Text) :
    lines (t ++ u) = lines t ++ lines u := by
  induction t using piecewise_induction '\n' with
  | last piece hpiece => exact absurd (List.mem_of_getLast? h) hpiece
  | more piece rest hpiece ih =>
      rw [List.append_assoc, List.cons_append, lines_append_feed hpiece,
        lines_append_feed hpiece, List.cons_append]
      cases rest with
      | nil => rfl
      | cons c rest =>
          rw [List.getLast?_append_of_ne_nil _ (List.cons_ne_nil _ _),
            List.getLast?_cons_cons] at h
          rw [ih h]

-- =================================================================== counting

theorem countLines_of_notMem (h : 0x0A ∉ bs) :
    countLines bs = if bs = [] then 0 else 1 := by
  rcases List.eq_nil_or_concat' bs with rfl | ⟨front, b, rfl⟩
  · rfl
  · have hb : b ≠ 0x0A := by
      rintro rfl
      exact h (by simp)
    unfold countLines
    rw [List.getLast?_concat, List.count_eq_zero.2 h]
    simp [hb]

/-- A line feed ends the line it stands in. -/
theorem countLines_append_feed (bs rest : Bytes) :
    countLines (bs ++ 0x0A :: rest) = bs.count 0x0A + 1 + countLines rest := by
  unfold countLines
  rw [List.getLast?_append, List.getLast?_cons]
  cases hlast : rest.getLast? with
  | none =>
      obtain rfl := List.getLast?_eq_none_iff.1 hlast
      simp
  | some b =>
      simp
      omega

/-- Reading bytes as text keeps their line feeds. -/
theorem count_feed_ofBytes (bs : Bytes) :
    (ofBytes bs).count '\n' = bs.count 0x0A := by
  induction bs using piecewise_induction (0x0A : UInt8) with
  | last piece h =>
      rw [List.count_eq_zero.2 h, List.count_eq_zero.2 (feed_notMem_ofBytes h)]
  | more piece rest h ih =>
      rw [ofBytes_append_feed, List.count_append, List.count_append,
        List.count_eq_zero.2 h, List.count_eq_zero.2 (feed_notMem_ofBytes h)]
      simp [ih]

/-- The lines of a text are as many as those counted in its bytes. -/
theorem length_lines_ofBytes (bs : Bytes) :
    (lines (ofBytes bs)).length = countLines bs := by
  induction bs using piecewise_induction (0x0A : UInt8) with
  | last piece h =>
      rw [lines_of_notMem (feed_notMem_ofBytes h), countLines_of_notMem h]
      simp only [ofBytes_eq_nil_iff]
      split <;> rfl
  | more piece rest h ih =>
      rw [ofBytes_append_feed, lines_append_feed (feed_notMem_ofBytes h),
        countLines_append_feed, List.count_eq_zero.2 h, List.length_cons, ih]
      omega

end Text

end SourceDigest
