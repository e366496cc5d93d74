/-
Where the lines of comments come from.

Comments are collected by one reader and lines are classed by another, and
both keep the block that they are in. They open and close it at the same
lines: they know the same marks (`opensBlock?_eq`), and that one looks for the
end of a block in the whole line and the other in the trimmed one makes no
difference, since no such end holds a blank. The collector also holds lines
back until a comment is complete, and skips whatever comes once it has enough.

The induction is on the lines, along the collector, and `Steady` is what it
carries. Each text that the collector holds back (`held`) is a part of a line
that was classed as a comment, so what it gives from some point on is made of
what it holds there and of the comment lines still to come
(`partsOf_collect`). Joining and trimming take away lines and parts of lines
but bring in none.
-/
import Mathlib
import SourceDigest.Summary.Comments
import SourceDigest.Proofs.Lines.Classes
import SourceDigest.Proofs.Text.Lines

namespace SourceDigest

namespace Comment

open LineClass (Clear linesIn opensBlock?)
open Text (PartsOf)

variable {marks : CommentSyntax} {b : Block} {group ts us more lines : List Text}
  {comment line tail trimmed body : Text}

-- ====================================================================== marks

/-- The collector and the classes know the same blocks. -/
theorem opensBlock?_eq (marks : CommentSyntax) (trimmed : Text) :
    opensBlock? marks trimmed
      = (Block.opened? marks trimmed).map fun o => (o.1.closing, o.2) := by
  unfold opensBlock? Block.opened?
  dsimp only
  rw [Option.map_or]
  congr 1
  · rw [Option.map_bind]
    congr 1
    funext pair
    simp [Function.comp_def]
  · split
    · rw [List.map_findSome?]
      simp [Function.comp_def]
    · rfl

theorem body_of_opened? (h : Block.opened? marks trimmed = some (b, tail)) :
    b.body = [] := by
  unfold Block.opened? at h
  dsimp only at h
  rcases Option.or_eq_some_iff.1 h with h | ⟨-, h⟩
  · obtain ⟨pair, -, h⟩ := Option.bind_eq_some_iff.1 h
    obtain ⟨rest, -, heq⟩ := Option.map_eq_some_iff.1 h
    obtain ⟨rfl, -⟩ := Prod.mk.inj heq
    rfl
  · split at h
    · obtain ⟨quote, -, h⟩ := List.exists_of_findSome?_eq_some h
      obtain ⟨rest, -, heq⟩ := Option.map_eq_some_iff.1 h
      obtain ⟨rfl, -⟩ := Prod.mk.inj heq
      rfl
    · cases h

/-- A block takes in a line as far as its end. -/
theorem Block.add_eq (b : Block) (line : Text) :
    ∃ kept, kept <+: line
      ∧ b.add line
        = ({ b with body := b.body ++ [kept] }, Text.holds line b.closing) := by
  unfold Block.add Text.holds
  cases hcut : Text.cut? b.closing line with
  | none => exact ⟨line, List.prefix_rfl, rfl⟩
  | some found => exact ⟨found.1, Text.cut?_fst_isPrefix hcut, rfl⟩

/-- A block takes in the rest of the line that opens it in the same way. -/
theorem Block.add_opened (hmarks : Clear marks)
    (h : Block.opened? marks (Text.trim line) = some (b, tail)) :
    ∃ kept, kept <:+: line
      ∧ b.add tail = ({ b with body := [kept] }, Text.holds tail b.closing) := by
  have hopens : opensBlock? marks (Text.trim line) = some (b.closing, tail) := by
    rw [opensBlock?_eq, h, Option.map_some]
  have htail := (hmarks.of_opensBlock? hopens).2.2
  obtain ⟨kept, hkept, heq⟩ := b.add_eq tail
  rw [body_of_opened? h, List.nil_append] at heq
  exact ⟨kept, hkept.isInfix.trans (htail.isInfix.trans (Text.trim_isInfix line)), heq⟩

/-- The words of a line comment are a part of a line that opens no block. -/
theorem lineBody_spec (hmarks : Clear marks)
    (h : (if opensMarked marks trimmed then none else lineBody? marks trimmed)
      = some body) :
    body <:+: trimmed ∧ opensBlock? marks trimmed = none
      ∧ ∃ mark ∈ marks.line, mark <+: trimmed := by
  obtain ⟨hunmarked, h⟩ := Option.ite_none_left_eq_some.1 h
  unfold lineBody? at h
  obtain ⟨rest, hrest, rfl⟩ := Option.map_eq_some_iff.1 h
  obtain ⟨mark, hmark, hlead⟩ := List.exists_of_findSome?_eq_some hrest
  obtain rfl := Text.dropLead?_eq_some.1 hlead
  refine ⟨?_, ?_, mark, hmark, List.prefix_append ..⟩
  · exact (Text.trim_isInfix _).trans ((List.dropWhile_suffix _).isInfix.trans
      (List.suffix_append mark rest).isInfix)
  · cases hopens : opensBlock? marks (mark ++ rest) with
    | none => rfl
    | some opened =>
        obtain ⟨hne, happart⟩ := hmarks.line mark hmark
        rcases LineClass.exists_of_opensBlock? hopens with
          ⟨opening, hblock, heq⟩ | ⟨hdocstrings, hquote, heq⟩
        · refine absurd ?_ hunmarked
          unfold opensMarked
          rw [hblock]
          exact Text.dropLead?_isSome_iff.2 ⟨opened.2, heq.symm⟩
        · have hquotes := LineClass.clear_of_mem_tripleQuotes hquote
          have hhead := congrArg List.head? heq
          rw [List.head?_append_of_ne_nil _ hne,
            List.head?_append_of_ne_nil _ hquotes.1] at hhead
          exact absurd hhead (happart hdocstrings _ hquote)

-- ===================================================================== pieces

/-- The lines of some comments. -/
def linesOf (comments : List Text) : List Text :=
  comments.flatMap (Text.splitOn '\n')

theorem length_linesOf (comments : List Text) :
    (linesOf comments).length = (comments.map fun c => c.count '\n' + 1).sum := by
  unfold linesOf
  rw [List.length_flatMap]
  simp only [Text.length_splitOn]

/-- A comment that says something has its lines in front. -/
theorem partsOf_cons
    (hcomment : comment ≠ [] → PartsOf (Text.splitOn '\n' comment) ts)
    (hmore : PartsOf (linesOf more) us) :
    PartsOf (linesOf (cons comment more)) (ts ++ us) := by
  unfold cons
  split
  · exact (PartsOf.nil ts).append hmore
  · rename_i hne
    exact (hcomment hne).append hmore

theorem splitOn_join_feed (hts : ∀ t ∈ ts, '\n' ∉ t) (hne : ts ≠ []) :
    Text.splitOn '\n' (Text.join "\n" ts) = ts :=
  Text.splitOn_join hts hne

/-- Line comments that are joined keep their lines, but for empty ones at the
ends. -/
theorem partsOf_joined (hgroup : ∀ t ∈ group, '\n' ∉ t) (hne : joined group ≠ []) :
    PartsOf (Text.splitOn '\n' (joined group)) group := by
  have hparts : PartsOf (Text.splitOn '\n' (joined group))
      (Text.splitOn '\n' (Text.join "\n" group)) :=
    Text.partsOf_splitOn (Text.trim_isInfix _)
  rwa [splitOn_join_feed hgroup] at hparts
  rintro rfl
  exact hne rfl

theorem Block.cleanLine_isInfix (starred : Bool) (line : Text) :
    cleanLine starred line <:+: line := by
  unfold cleanLine
  split
  · exact (Text.trim_isInfix _).trans ((List.dropWhile_suffix _).isInfix.trans
      (Text.trim_isInfix line))
  · exact Text.trim_isInfix line

/-- The lines of a block are cleaned, and dropped if nothing is left. -/
theorem partsOf_text (hbody : ∀ t ∈ b.body, '\n' ∉ t) (hne : b.text ≠ []) :
    PartsOf (Text.splitOn '\n' b.text) b.body := by
  have hclean : PartsOf ((b.body.map (Block.cleanLine b.starred)).filter (· ≠ []))
      b.body := by
    clear hbody hne
    induction b.body with
    | nil => exact .nil []
    | cons t ts ih =>
        rw [List.map_cons, List.filter_cons]
        split
        · exact ih.cons (Block.cleanLine_isInfix _ t)
        · exact ih.skip t
  unfold Block.text at hne ⊢
  rw [splitOn_join_feed]
  · exact hclean
  · intro t ht hfeed
    obtain ⟨u, hu, rfl⟩ := List.mem_map.1 (List.mem_of_mem_filter ht)
    exact hbody u hu ((Block.cleanLine_isInfix _ u).subset hfeed)
  · intro hnil
    rw [hnil] at hne
    exact hne rfl

-- ================================================================== collecting

/-- What has been read but is in no comment yet: line comments, or the lines of
the block that is being read. -/
def held (group : List Text) : Option Block → List Text
  | none => group
  | some b => b.body

/-- What is held back of a line is a part of it. -/
theorem partsOf_hold {kept : Text} {held : List Text} (hkept : kept <:+: line)
    (h : PartsOf ts (held ++ [kept] ++ us)) :
    PartsOf ts (held ++ ([line] ++ us)) := by
  refine h.trans ?_
  rw [List.append_assoc]
  exact (PartsOf.refl held).append ((PartsOf.refl us).cons hkept)

/-- What the collector is like between two lines. -/
structure Steady (group : List Text) (block : Option Block) : Prop where
  feed : ∀ t ∈ held group block, '\n' ∉ t
  /-- Line comments are complete where a block begins. -/
  alone : block ≠ none → group = []
  closing : ∀ b ∈ block, b.closing ≠ [] ∧ ∀ c ∈ b.closing, Text.isBlank c = false

namespace Steady

variable {kept : Text}

theorem nil : Steady [] none := ⟨by simp [held], by simp, by simp⟩

theorem block (hbody : ∀ t ∈ b.body, '\n' ∉ t)
    (hclosing : b.closing ≠ [] ∧ ∀ c ∈ b.closing, Text.isBlank c = false) :
    Steady [] (some b) := by
  refine ⟨hbody, fun _ => rfl, fun b' hb' => ?_⟩
  rwa [← Option.some.inj hb']

/-- What is held back holds no line feed if no line does. -/
theorem feed_concat {held : List Text} (hheld : ∀ t ∈ held, '\n' ∉ t)
    (hkept : kept <:+: line) (hline : '\n' ∉ line) : ∀ t ∈ held ++ [kept], '\n' ∉ t := by
  intro t ht
  rcases List.mem_append.1 ht with ht | ht
  · exact hheld t ht
  · rw [List.mem_singleton.1 ht]
    exact fun hfeed => hline (hkept.subset hfeed)

theorem concat (h : Steady group none) (hkept : kept <:+: line)
    (hline : '\n' ∉ line) : Steady (group ++ [kept]) none :=
  ⟨feed_concat h.feed hkept hline, by simp, by simp⟩

end Steady

/-- The lines of the comments that are collected from some point on are parts
of different ones of the lines held back there and the comment lines to
come. -/
theorem partsOf_collect (hmarks : Clear marks) (room : Nat) (group : List Text)
    (block : Option Block) (lines : List Text) (hlines : ∀ l ∈ lines, '\n' ∉ l)
    (hsteady : Steady group block) :
    PartsOf (linesOf (collect marks room group block lines))
      (held group block ++ linesIn .comment marks (block.map (·.closing)) lines) := by
  fun_induction collect marks room group block lines with
  | case1 => exact .nil _
  | case2 group room hroom =>
      exact partsOf_cons (partsOf_joined hsteady.feed) (.nil _)
  | case3 => exact partsOf_cons (partsOf_text hsteady.feed) (.nil _)
  | case4 room group b line rest b' hadd ih =>
      obtain ⟨hline, hrest⟩ := List.forall_mem_cons.1 hlines
      obtain ⟨hclear, hblank⟩ := hsteady.closing b rfl
      obtain rfl := hsteady.alone (Option.some_ne_none b)
      obtain ⟨kept, hkept, heq⟩ := b.add_eq line
      obtain ⟨rfl, hends⟩ := Prod.mk.inj (hadd.symm.trans heq)
      rw [Option.map_some, LineClass.linesIn_cons,
        LineClass.of_inside hclear hblank, ← hends]
      refine partsOf_hold hkept.isInfix (partsOf_cons (partsOf_text ?_) (ih hrest .nil))
      exact Steady.feed_concat hsteady.feed hkept.isInfix hline
  | case5 room group b line rest b' ended hadd hended ih =>
      obtain ⟨hline, hrest⟩ := List.forall_mem_cons.1 hlines
      obtain ⟨hclear, hblank⟩ := hsteady.closing b rfl
      obtain rfl := hsteady.alone (Option.some_ne_none b)
      obtain ⟨kept, hkept, heq⟩ := b.add_eq line
      obtain ⟨rfl, rfl⟩ := Prod.mk.inj (hadd.symm.trans heq)
      rw [Option.map_some, LineClass.linesIn_cons,
        LineClass.of_inside hclear hblank, if_pos rfl, if_neg hended]
      refine partsOf_hold hkept.isInfix (ih hrest (.block ?_ ⟨hclear, hblank⟩))
      exact Steady.feed_concat hsteady.feed hkept.isInfix hline
  | case6 => exact .nil _
  | case7 room group line rest trimmed hroom body hbody ih =>
      obtain ⟨hline, hrest⟩ := List.forall_mem_cons.1 hlines
      obtain ⟨hpart, hopens, mark, hmark, hstart⟩ := lineBody_spec hmarks hbody
      have hkept : body <:+: line := hpart.trans (Text.trim_isInfix line)
      rw [Option.map_none, LineClass.linesIn_cons,
        LineClass.of_line hmarks hmark hstart hopens]
      exact partsOf_hold hkept (ih hrest (hsteady.concat hkept hline))
  | case8 room group line rest trimmed hroom hbody comment room' ihnone ihended
      ihopen =>
      obtain ⟨hline, hrest⟩ := List.forall_mem_cons.1 hlines
      refine partsOf_cons (partsOf_joined hsteady.feed) ?_
      rw [Option.map_none, LineClass.linesIn_cons]
      split
      · exact .nil _
      have hopens := opensBlock?_eq marks trimmed
      split
      · rename_i hopened
        rw [hopened] at hopens
        rw [LineClass.of_opens_none hopens]
        exact (PartsOf.nil _).append (ihnone hrest .nil)
      · rename_i b tail hopened
        rw [hopened, Option.map_some] at hopens
        obtain ⟨kept, hkept, heq⟩ := Block.add_opened hmarks hopened
        have hclosing := (hmarks.of_opensBlock? hopens).1
        have hfeed : ∀ t ∈ [kept], '\n' ∉ t :=
          Steady.feed_concat (List.forall_mem_nil _) hkept hline
        rw [LineClass.of_opens hmarks hopens, heq]
        dsimp only
        refine PartsOf.trans ?_ ((PartsOf.refl _).cons hkept)
        split
        · show PartsOf _ ([kept] ++ _)
          exact partsOf_cons (partsOf_text hfeed) (ihended _ hrest .nil)
        · exact ihopen _ hrest (.block hfeed hclosing)

-- ================================================================= whole texts

/-- An interpreter line opens no block in any language. -/
theorem opensBlock?_interpreter (language : Language) (rest : Text) :
    opensBlock? language.comments ('#' :: '!' :: rest) = none := by
  cases language <;> rfl

/-- Without an interpreter line in front the comment lines are as before, but
for that line itself. -/
theorem partsOf_readable (language : Language) (content : Text) :
    PartsOf (linesIn .comment language.comments none (readable content))
      (LineStats.commentLines language content) := by
  unfold readable LineStats.commentLines
  split
  · rename_i first rest hlines
    rw [hlines]
    split
    · rename_i hinterpreter
      obtain ⟨more, hmore⟩ := Text.dropLead?_isSome_iff.1 hinterpreter
      have hopens : opensBlock? language.comments (Text.trim first) = none := by
        rw [← hmore]
        exact opensBlock?_interpreter language more
      rw [LineClass.linesIn_cons, LineClass.of_opens_none hopens]
      exact (PartsOf.nil _).append (.refl _)
    · exact .refl _
  · rename_i hnil
    rw [hnil]
    exact .nil _

theorem feed_notMem_readable {content : Text} (h : line ∈ readable content) :
    '\n' ∉ line := by
  unfold readable at h
  split at h
  · rename_i first rest hlines
    refine Text.feed_notMem_of_mem_lines (t := content) ?_
    rw [hlines]
    split at h
    · exact List.mem_cons_of_mem _ h
    · exact h
  · cases h

/-- However many comments are collected from a text, each line of each of them
is a part of a line that the statistics of the text count as a comment, of a
different one for each, and in the same order. So the comments together have
no more lines than there are comment lines. -/
theorem comments_come_from_comment_lines (language : Language) (content : Text)
    (max : Nat) :
    let comments := extract language content max
    let stats := LineStats.collect language content
    stats.comment = (LineStats.commentLines language content).length
      ∧ (∃ sources, sources.Sublist (LineStats.commentLines language content)
        ∧ List.Forall₂ (· <:+: ·) (linesOf comments) sources)
      ∧ (comments.map fun c => c.count '\n' + 1).sum ≤ stats.comment := by
  intro comments stats
  have hparts : PartsOf (linesOf comments)
      (LineStats.commentLines language content) :=
    (partsOf_collect (LineClass.clear_comments language) max [] none _
      (fun _ => feed_notMem_readable) .nil).trans (partsOf_readable language content)
  have hcount : stats.comment = (LineStats.commentLines language content).length :=
    LineStats.comment_collect language content
  refine ⟨hcount, ?_, ?_⟩
  · obtain ⟨sources, hall, hsources⟩ := List.sublistForall₂_iff.1 hparts
    exact ⟨sources, hsources, hall⟩
  · rw [← length_linesOf, hcount]
    exact hparts.length_le

end Comment

end SourceDigest
