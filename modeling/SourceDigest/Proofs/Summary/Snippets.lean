/-
Where the snippets of a text are taken from.

The lines fall into as many equal segments as there are snippets, and a
snippet is laid around the middle of its segment. Half of the snippet is no
longer than half of the segment, and what is left of it is no longer than what
is left of the segment, whichever of the two lengths is odd. So a snippet keeps
to its segment on both sides (`isPlaced`): nothing is cut off where half of its
length is taken away from the middle, and the end of the text does not move it.
That snippets do not overlap and stand in the order of the text follows from
the segments alone.

A snippet is read back by its line feeds. The lines that it shows hold none and
its heading holds none, so the pieces between them are the heading and the lines
(`shows_excerpt`).
-/
import Mathlib
import SourceDigest.Summary.Snippets
import SourceDigest.Proofs.Text.Lines
import SourceDigest.Proofs.Text.Pieces

namespace SourceDigest

namespace Snippet

variable {total count segment length i : Nat} {lines : List Text}

-- ================================================================== placement

/-- A snippet, the `i`-th of some, keeps to its segment. Neither the beginning
nor the end of the text has a part in where it starts. -/
structure IsPlaced (total segment length i : Nat) : Prop where
  half_le : length / 2 ≤ i * segment + segment / 2
  length_le : length ≤ total
  start_eq : start total segment length i = i * segment + segment / 2 - length / 2
  begins : i * segment ≤ start total segment length i
  ends : start total segment length i + length ≤ (i + 1) * segment
  within : (i + 1) * segment ≤ total

/-- The segments do not go beyond the text. -/
theorem mul_segment_le (hi : i < count) : (i + 1) * (total / count) ≤ total :=
  calc (i + 1) * (total / count) ≤ count * (total / count) :=
        Nat.mul_le_mul_right _ hi
    _ ≤ total := Nat.mul_div_le total count

/-- What is no longer than its segment keeps to it. -/
theorem isPlaced (hlength : length ≤ segment) (hwithin : (i + 1) * segment ≤ total) :
    IsPlaced total segment length i := by
  rw [Nat.succ_mul] at hwithin
  have hhalf : length / 2 ≤ segment / 2 := Nat.div_le_div_right hlength
  -- the other halves are the larger ones where a length is odd
  have hother : length - length / 2 ≤ segment - segment / 2 := by omega
  have hstart : start total segment length i
      = i * segment + segment / 2 - length / 2 := by
    unfold start
    omega
  refine ⟨by omega, by omega, hstart, ?_, ?_, by rwa [Nat.succ_mul]⟩
  · rw [hstart]
    omega
  · rw [hstart, Nat.succ_mul]
    omega

/-- A snippet ends before a later one starts. -/
theorem IsPlaced.disjoint {j : Nat} (hi : IsPlaced total segment length i)
    (hj : IsPlaced total segment length j) (hij : i < j) :
    start total segment length i + length ≤ start total segment length j :=
  calc start total segment length i + length ≤ (i + 1) * segment := hi.ends
    _ ≤ j * segment := Nat.mul_le_mul_right _ hij
    _ ≤ start total segment length j := hj.begins

-- =================================================================== contents

/-- What stands over a snippet of the lines from `s` on. -/
def heading (s length : Nat) : Text :=
  "--- lines " ++ Text.ofNat (s + 1) ++ "-" ++ Text.ofNat (s + length) ++ " ---"

/-- A snippet shows lines of a text, all of which are there, under their
heading and with nothing else. -/
structure Shows (lines : List Text) (s length : Nat) (snippet : Text) : Prop where
  inRange : s + length ≤ lines.length
  pieces : Text.splitOn '\n' snippet = heading s length :: (lines.drop s).take length

/-- Numbers are written in digits. -/
theorem feed_notMem_ofNat (n : Nat) : '\n' ∉ Text.ofNat n := by
  intro h
  have hdigit := Nat.isDigit_of_mem_toDigits (by decide) (by decide) h
  revert hdigit
  decide

theorem feed_notMem_heading (s length : Nat) : '\n' ∉ heading s length := by
  unfold heading
  simp only [List.mem_append, feed_notMem_ofNat, or_false]
  decide

theorem shows_excerpt {s : Nat} (hlines : ∀ line ∈ lines, '\n' ∉ line)
    (hlength : 0 < length) (hrange : s + length ≤ lines.length) :
    Shows lines s length (excerpt lines s length) := by
  refine ⟨hrange, ?_⟩
  have hshown : ∀ line ∈ (lines.drop s).take length, '\n' ∉ line :=
    fun line hline => hlines line (List.mem_of_mem_drop (List.mem_of_mem_take hline))
  have hne : (lines.drop s).take length ≠ [] := by
    intro hnil
    have hcount := congrArg List.length hnil
    rw [List.length_take, List.length_drop, List.length_nil] at hcount
    omega
  have hexcerpt : excerpt lines s length
      = heading s length ++ '\n' :: Text.join ['\n'] ((lines.drop s).take length) := by
    unfold excerpt heading
    simp only [List.append_assoc]
    rfl
  rw [hexcerpt, Text.splitOn_append_of_notMem (feed_notMem_heading s length),
    Text.splitOn_join hshown hne]

-- ================================================================ all snippets

/-- The snippets one by one, or none at all. -/
theorem extract_eq (content : Text) (count most : Nat) :
    let lines := Text.lines content
    let segment := lines.length / count
    let length := min most segment
    extract content count most
      = if 0 < count ∧ 3 ≤ length then
          some ((List.range count).map fun i =>
            excerpt lines (start lines.length segment length i) length)
        else none := by
  intro lines segment length
  unfold extract
  by_cases hcount : count = 0
  · rw [if_pos hcount, if_neg (by omega)]
  · rw [if_neg hcount]
    dsimp only
    by_cases hlength : length < minLines
    · rw [if_pos hlength, if_neg fun h => absurd h.2 (Nat.not_le.2 hlength)]
    · rw [if_neg hlength, if_pos ⟨Nat.pos_of_ne_zero hcount, Nat.not_lt.1 hlength⟩]

/-- There are snippets exactly when some are asked for and each can have three
lines. Then there are as many as were asked for. Each shows consecutive lines
from within its own segment, under a heading that numbers them from one, and each
ends before the next one starts. -/
theorem snippets_keep_to_segments (content : Text) (count most : Nat) :
    let lines := Text.lines content
    let segment := lines.length / count
    let length := min most segment
    let starts := start lines.length segment length
    ((extract content count most).isSome = true ↔ 0 < count ∧ 3 ≤ length)
      ∧ ∀ found, extract content count most = some found →
        found.length = count
          ∧ (∀ i < count, IsPlaced lines.length segment length i
            ∧ ∃ snippet, found[i]? = some snippet
              ∧ Shows lines (starts i) length snippet)
          ∧ ∀ i j, i < j → j < count → starts i + length ≤ starts j := by
  intro lines segment length starts
  have hextract : extract content count most
      = if 0 < count ∧ 3 ≤ length then
          some ((List.range count).map fun i => excerpt lines (starts i) length)
        else none := extract_eq content count most
  have hplaced : ∀ i < count, IsPlaced lines.length segment length i :=
    fun i hi => isPlaced (Nat.min_le_right most segment) (mul_segment_le hi)
  rw [hextract]
  constructor
  · rw [Option.isSome_iff_exists]
    simp only [Option.ite_none_right_eq_some, exists_and_left]
    exact and_iff_left ⟨_, rfl⟩
  · intro found hfound
    obtain ⟨⟨-, hthree⟩, hfound⟩ := Option.ite_none_right_eq_some.1 hfound
    obtain rfl := Option.some.inj hfound
    refine ⟨by rw [List.length_map, List.length_range], fun i hi => ?_,
      fun i j hij hj => (hplaced i (hij.trans hj)).disjoint (hplaced j hj) hij⟩
    refine ⟨hplaced i hi, excerpt lines (starts i) length, ?_, ?_⟩
    · rw [List.getElem?_map, List.getElem?_range hi]
      rfl
    · have hrange := (hplaced i hi).ends.trans (hplaced i hi).within
      exact shows_excerpt (fun line => Text.feed_notMem_of_mem_lines) (by omega) hrange

/-- Two snippets of three lines; the last of seven lines is in neither segment. -/
theorem snippets_keep_to_segments_of_seven :
    let content : Text := "a\nb\nc\nd\ne\nf\ng\n"
    let found : List Text := ["--- lines 1-3 ---\na\nb\nc", "--- lines 4-6 ---\nd\ne\nf"]
    extract content 2 5 = some found ∧ found.length = 2
      ∧ IsPlaced 7 3 3 1 ∧ Shows (Text.lines content) 3 3 "--- lines 4-6 ---\nd\ne\nf"
      ∧ start 7 3 3 0 + 3 ≤ start 7 3 3 1 := by
  intro content found
  have hextract : extract content 2 5 = some found := by decide +kernel
  have hlines : (Text.lines content).length = 7 := by decide +kernel
  obtain ⟨hlength, hshown, hapart⟩ :=
    (snippets_keep_to_segments content 2 5).2 found hextract
  rw [hlines] at hshown hapart
  obtain ⟨hplaced, snippet, hsnippet, hshows⟩ := hshown 1 (by decide)
  obtain rfl := Option.some.inj hsnippet
  exact ⟨hextract, hlength, hplaced, hshows, hapart 0 1 (by decide) (by decide)⟩

end Snippet

end SourceDigest
