/-
Where the header of a signature ends.

The lines of a text are gone over once, and lines that belong to a header are
left out as beginnings of another (`Reaches`). What is found up to a line that
is reached does not hang on what is found from there on (`collect_of_reaches`).

Of a line with a brace the header is what stands before its first brace
(`capture_of_mem`). Bodies open outside of brackets (`IsHead`): a brace in a list
of parameters, in a default value or in a type opens none. So a header is
complete exactly when it holds no brace of its own.
-/
import Mathlib
import SourceDigest.Summary.Signatures
import SourceDigest.Proofs.Text.Parts

namespace SourceDigest

namespace Signature

-- ==================================================================== reaching

/-- On the way through some lines the scan comes to later ones as possible
beginnings of a header, with signatures found before them. -/
inductive Reaches (language : Language) : List Text → List Text → List Text → Prop
  | here (ls : List Text) : Reaches language ls [] ls
  | other {line : Text} {rest found ls : List Text} :
      startsAt language line = false → Reaches language rest found ls →
      Reaches language (line :: rest) found ls
  | unfinished {line : Text} {rest found ls : List Text} :
      startsAt language line = true → capture language (line :: rest) = none →
      Reaches language rest found ls → Reaches language (line :: rest) found ls
  | header {line signature : Text} {rest found ls : List Text} {taken : Nat} :
      startsAt language line = true →
      capture language (line :: rest) = some (signature, taken) →
      Reaches language (rest.drop (taken - 1)) found ls →
      Reaches language (line :: rest) (signature :: found) ls

variable {language : Language} {line head front : Text} {ls ms rest found : List Text}

/-- Lines of a header before are passed over. -/
theorem collect_skip (language : Language) (skip : Nat) (ls : List Text) :
    collect language skip ls = collect language 0 (ls.drop skip) := by
  induction ls generalizing skip with
  | nil => cases skip <;> rfl
  | cons line ls ih =>
      cases skip with
      | zero => rfl
      | succ skip => exact ih skip

/-- Up to lines that are reached some signatures are found, and those from there
on are theirs. -/
theorem collect_of_reaches (h : Reaches language ms found ls) :
    collect language 0 ms = found ++ collect language 0 ls := by
  induction h with
  | here ls => rfl
  | other hstarts _ ih =>
      rw [collect, if_neg (by simp [hstarts])]
      exact ih
  | unfinished hstarts hcapture _ ih =>
      rw [collect, if_pos hstarts, hcapture]
      exact ih
  | header hstarts hcapture _ ih =>
      rw [collect, if_pos hstarts, hcapture]
      dsimp only
      rw [collect_skip, ih, List.cons_append]

-- ======================================================================= heads

/-- How many brackets of one kind are open behind a text; one that closes where
none is open counts for nothing. -/
def nesting (opening closing : Char) (t : Text) : Nat :=
  t.foldl (fun depth c =>
    if c = opening then depth + 1 else if c = closing then depth - 1 else depth) 0

/-- Behind the text neither a parenthesis nor a square bracket is open. -/
def IsOutside (t : Text) : Prop := nesting '(' ')' t = 0 ∧ nesting '[' ']' t = 0

instance (t : Text) : Decidable (IsOutside t) := inferInstanceAs (Decidable (_ ∧ _))

/-- What stands on a line before its first brace outside of brackets. -/
structure IsHead (line head : Text) : Prop where
  opens : head ++ ['\x7b'] <+: line
  outside : IsOutside head
  first : ∀ front, front ++ ['\x7b'] <+: head → ¬ IsOutside front

instance (line head : Text) : Decidable (IsHead line head) :=
  decidable_of_iff (head ++ ['\x7b'] <+: line ∧ IsOutside head
      ∧ ∀ front ∈ head.inits, front ++ ['\x7b'] <+: head → ¬ IsOutside front)
    ⟨fun ⟨hopens, houtside, hfirst⟩ => ⟨hopens, houtside, fun front hfront =>
        hfirst front ((List.mem_inits ..).2 ((List.prefix_append ..).trans hfront)) hfront⟩,
      fun h => ⟨h.opens, h.outside, fun front _ => h.first front⟩⟩

/-- A line with a brace outside of brackets has a first one. -/
theorem exists_isHead (hfront : front ++ ['\x7b'] <+: line) (h : IsOutside front) :
    ∃ head, IsHead line head := by
  -- on the length of what stands before the brace
  induction hn : front.length using Nat.strong_induction_on generalizing front with
  | _ n ih =>
    by_cases hearlier : ∃ front', front' ++ ['\x7b'] <+: front ∧ IsOutside front'
    · obtain ⟨front', hprefix, h'⟩ := hearlier
      have hline : front' ++ ['\x7b'] <+: line :=
        hprefix.trans ((List.prefix_append ..).trans hfront)
      have hshorter : front'.length < n := by
        have hlength := hprefix.length_le
        rw [List.length_append, List.length_singleton] at hlength
        omega
      exact ih _ hshorter hline h' rfl
    · exact ⟨front, hfront, h, fun front' hprefix h' => hearlier ⟨front', hprefix, h'⟩⟩

-- ====================================================================== bodies

/-- A head with the body behind it left out. -/
def elided (head : Text) : Text := Text.trim head ++ " \x7b ... \x7d"

/-- A line with a brace is a header of its own, up to its first brace. -/
theorem capture_of_mem (hbraces : language.usesBraces = true) (hline : '\x7b' ∈ line)
    (rest : List Text) :
    capture language (line :: rest) = some (elided (Text.before '\x7b' line), 1) := by
  have hpython : language ≠ .python := by
    intro h
    rw [h] at hbraces
    cases hbraces
  have hjoin : Text.join " " (addPart [] (Text.trim (Text.before '\x7b' line)))
      = Text.trim (Text.before '\x7b' line) := by
    unfold addPart
    split
    · rename_i hnil
      exact hnil.symm
    · rfl
  have htake : (line :: rest).take maxLines = line :: rest.take 5 := rfl
  rw [capture, if_neg hpython, if_pos hbraces, htake, captureBraced,
    if_pos (by simpa using hline), hjoin]
  rfl

/-- What stands before the first brace is the head exactly when the head holds no
brace; trimming does not hide the difference. -/
theorem elided_before_eq_iff (h : head ++ ['\x7b'] <+: line) :
    elided (Text.before '\x7b' line) = elided head ↔ '\x7b' ∉ head := by
  obtain ⟨tail, rfl⟩ := h
  rw [List.append_assoc, List.singleton_append]
  constructor
  · intro heq hmem
    have htrim := List.append_cancel_right heq
    have hcount := congrArg (List.count '\x7b') htrim
    rw [Text.count_trim (by decide), Text.count_trim (by decide)] at hcount
    have hbefore : '\x7b' ∉ Text.before '\x7b' (head ++ '\x7b' :: tail) := by
      intro hbrace
      simpa using List.mem_takeWhile_imp hbrace
    rw [List.count_eq_zero.2 hbefore] at hcount
    exact List.count_eq_zero.1 hcount.symm hmem
  · intro hmem
    rw [Text.before_append_self hmem]

/-- In a language with bodies in braces, a line that is reached, that starts a
header and that has a brace outside of brackets has a head and gives one
signature. This is the head with the body left out exactly when the head holds no
brace. -/
theorem signature_keeps_head_iff {content : Text} (hbraces : language.usesBraces = true)
    (hreach : Reaches language (Text.lines content) found (line :: rest))
    (hstarts : startsAt language line = true)
    (hbrace : ∃ front, front ++ ['\x7b'] <+: line ∧ IsOutside front) :
    (∃ head, IsHead line head)
      ∧ ∃ signature, all language content = found ++ signature :: collect language 0 rest
        ∧ ∀ head, IsHead line head → (signature = elided head ↔ '\x7b' ∉ head) := by
  obtain ⟨front, hfront, houtside⟩ := hbrace
  have hmem : '\x7b' ∈ line := hfront.subset (by simp)
  refine ⟨exists_isHead hfront houtside, elided (Text.before '\x7b' line), ?_,
    fun head hhead => elided_before_eq_iff hhead.opens⟩
  rw [all, collect_of_reaches hreach, collect, if_pos hstarts,
    capture_of_mem hbraces hmem]

/-- A header with brackets, behind another one of two lines. -/
theorem signature_keeps_head_behind_broken_header :
    let content : Text := "fn g(\n) \x7b\nfn f(a: [u8; 4]) -> u8 \x7b\n"
    let line : Text := "fn f(a: [u8; 4]) -> u8 \x7b"
    Reaches .rust (Text.lines content) ["fn g( ) \x7b ... \x7d"] [line]
      ∧ startsAt .rust line = true
      ∧ IsHead line "fn f(a: [u8; 4]) -> u8 "
      ∧ ∃ signature, all .rust content
          = ["fn g( ) \x7b ... \x7d".toList] ++ signature :: collect .rust 0 []
        ∧ ∀ head, IsHead line head → (signature = elided head ↔ '\x7b' ∉ head) := by
  intro content line
  have hreach : Reaches .rust (Text.lines content) ["fn g( ) \x7b ... \x7d"] [line] :=
    .header (by decide +kernel) (by decide +kernel : capture .rust _ = some (_, 2)) (.here _)
  have hstarts : startsAt .rust line = true := by decide +kernel
  have hhead : IsHead line "fn f(a: [u8; 4]) -> u8 " := by decide +kernel
  exact ⟨hreach, hstarts, hhead,
    (signature_keeps_head_iff rfl hreach hstarts ⟨_, hhead.opens, hhead.outside⟩).2⟩

/-- A default value ends the header in the middle of its parameters. -/
theorem all_of_default_object :
    let line : Text := "function f(opts = \x7b\x7d) \x7b"
    startsAt .javaScript line = true
      ∧ IsHead line "function f(opts = \x7b\x7d) "
      ∧ all .javaScript (line ++ "\n\x7d\n")
        = ["function f(opts = \x7b ... \x7d".toList] := by
  decide +kernel

end Signature

end SourceDigest
