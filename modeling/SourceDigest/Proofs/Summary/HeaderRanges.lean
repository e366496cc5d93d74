/-
Which lines the headers of a text take, and whether one takes the beginning of
another.

A header goes on to the first line that it may end on (`endsOn`), if that is
among the first six (`EndsAfter`); whether it has come to its end is all that
capturing a signature asks of the lines (`snd_capture`). The scan goes on behind
the last line of a header (`headers`), so a line is skipped as a beginning
exactly when a header before it has taken it (`mem_or_swallowed`), and no line is
taken twice (`pairwise_headersFrom`).

That a header is swallowed hangs on the lines alone and not on where the scan has
got to: the first of several headers that run into one another is reached, and it
takes the beginning of the next. So no header is swallowed exactly when none
would be, whichever line the scan were started at.
-/
import Mathlib
import SourceDigest.Proofs.Summary.Headers

namespace SourceDigest

namespace Signature

variable {language : Language} {line signature : Text} {ls rest before parts : List Text}
  {n skip taken i j : Nat}

-- ======================================================================= ends

/-- How many brackets are open behind some lines of a Python header. -/
def depthBehind (before : List Text) : Nat :=
  before.foldl (fun depth line => (headerLine depth none false line).depth) 0

/-- Whether a header that has taken some lines ends on the next one: there its
body opens or a semicolon stands, or its colon, or it has one line in any case. -/
def endsOn (language : Language) (before : List Text) (line : Text) : Bool :=
  if language = .python then (headerLine (depthBehind before) none false line).closed
  else if language.usesBraces then line.contains '\x7b' || line.contains ';'
  else true

/-- A header that starts on the first of some lines takes so many of them. -/
structure EndsAfter (language : Language) (ls : List Text) (taken : Nat) : Prop where
  le_maxLines : taken ≤ maxLines
  ends : ∃ k line, taken = k + 1 ∧ ls[k]? = some line
    ∧ endsOn language (ls.take k) line = true
  goesOn : ∀ k line, k + 1 < taken → ls[k]? = some line →
    endsOn language (ls.take k) line = false

/-- How many of some lines a header takes that has taken others before. -/
def reach? (language : Language) (before : List Text) : List Text → Option Nat
  | [] => none
  | line :: rest =>
    if endsOn language before line then some 1
    else (reach? language (before ++ [line]) rest).map (· + 1)

theorem reach?_eq_some_iff :
    reach? language before ls = some taken
      ↔ (∃ k line, taken = k + 1 ∧ ls[k]? = some line
          ∧ endsOn language (before ++ ls.take k) line = true)
        ∧ ∀ k line, k + 1 < taken → ls[k]? = some line →
          endsOn language (before ++ ls.take k) line = false := by
  induction ls generalizing before taken with
  | nil => simp [reach?]
  | cons line rest ih =>
      rw [reach?]
      by_cases hends : endsOn language before line = true
      · rw [if_pos hends, Option.some.injEq]
        constructor
        · rintro rfl
          exact ⟨⟨0, line, rfl, rfl, by simpa using hends⟩, fun k _ hk => by omega⟩
        · rintro ⟨⟨k, _, rfl, -, -⟩, hgoesOn⟩
          cases k with
          | zero => rfl
          | succ k =>
              have hfirst := hgoesOn 0 line (by omega) rfl
              rw [List.take_zero, List.append_nil, hends] at hfirst
              cases hfirst
      · rw [if_neg hends, Option.map_eq_some_iff]
        constructor
        · rintro ⟨m, hm, rfl⟩
          obtain ⟨⟨k, other, rfl, hother, hlast⟩, hgoesOn⟩ := ih.1 hm
          refine ⟨⟨k + 1, other, rfl, hother, by simpa using hlast⟩, ?_⟩
          intro k' other' hk' hother'
          cases k' with
          | zero =>
              obtain rfl := Option.some.inj hother'
              simpa using hends
          | succ k' => simpa using hgoesOn k' other' (by omega) hother'
        · rintro ⟨⟨k, other, rfl, hother, hlast⟩, hgoesOn⟩
          cases k with
          | zero =>
              obtain rfl := Option.some.inj hother
              rw [List.take_zero, List.append_nil] at hlast
              exact absurd hlast hends
          | succ k =>
              refine ⟨k + 1, ih.2 ⟨⟨k, other, rfl, hother, by simpa using hlast⟩, ?_⟩, rfl⟩
              intro k' other' hk' hother'
              simpa using hgoesOn (k' + 1) other' (by omega) hother'

-- =================================================================== capturing

theorem snd_captureIndented (before : List Text) :
    (captureIndented parts taken (depthBehind before) ls).map Prod.snd
      = (reach? .python before ls).map (taken + ·) := by
  induction ls generalizing parts taken before with
  | nil => rfl
  | cons line rest ih =>
      have hends : endsOn .python before line
          = (headerLine (depthBehind before) none false line).closed := if_pos rfl
      have hdepth : (headerLine (depthBehind before) none false line).depth
          = depthBehind (before ++ [line]) := by
        unfold depthBehind
        rw [List.foldl_append]
        rfl
      rw [captureIndented, reach?, hends]
      split
      · rfl
      · rw [hdepth, ih, Option.map_map]
        congr 1
        funext m
        simp only [Function.comp_apply]
        omega

theorem snd_captureBraced (before : List Text) (hpython : language ≠ .python)
    (hbraces : language.usesBraces = true) :
    (captureBraced parts taken ls).map Prod.snd
      = (reach? language before ls).map (taken + ·) := by
  induction ls generalizing parts taken before with
  | nil => rfl
  | cons line rest ih =>
      have hends : endsOn language before line
          = (line.contains '\x7b' || line.contains ';') := by
        rw [endsOn, if_neg hpython, if_pos hbraces]
      rw [captureBraced, reach?, hends]
      by_cases hbrace : line.contains '\x7b' = true
      · rw [if_pos hbrace, hbrace]
        rfl
      rw [if_neg hbrace, eq_false_of_ne_true hbrace, Bool.false_or]
      by_cases hsemicolon : line.contains ';' = true
      · rw [if_pos hsemicolon, hsemicolon]
        rfl
      · rw [if_neg hsemicolon, if_neg hsemicolon, ih (before ++ [line]),
          Option.map_map]
        congr 1
        funext m
        simp only [Function.comp_apply]
        omega

/-- How many lines a header takes is settled by where it may end. -/
theorem snd_capture (language : Language) (ls : List Text) :
    (capture language ls).map Prod.snd = reach? language [] (ls.take maxLines) := by
  have hzero : ∀ m : Option Nat, m.map (0 + ·) = m := by
    intro m
    simp
  unfold capture
  split
  · rename_i hpython
    rw [hpython]
    exact (snd_captureIndented []).trans (hzero _)
  rename_i hpython
  split
  · rename_i hbraces
    exact (snd_captureBraced [] hpython hbraces).trans (hzero _)
  · rename_i hbraces
    cases ls with
    | nil => rfl
    | cons line rest =>
        have hends : endsOn language [] line = true := by
          rw [endsOn, if_neg hpython, if_neg hbraces]
        have htake : (line :: rest).take maxLines = line :: rest.take 5 := rfl
        rw [htake, reach?, if_pos hends]
        rfl

/-- Some lines begin with a header of so many lines exactly when a signature is
captured over so many. -/
theorem exists_capture_iff :
    (∃ signature, capture language ls = some (signature, taken))
      ↔ EndsAfter language ls taken := by
  have hsnd : (∃ signature, capture language ls = some (signature, taken))
      ↔ (capture language ls).map Prod.snd = some taken := by
    rw [Option.map_eq_some_iff]
    constructor
    · rintro ⟨signature, h⟩
      exact ⟨_, h, rfl⟩
    · rintro ⟨⟨signature, m⟩, h, rfl⟩
      exact ⟨signature, h⟩
  -- the first six lines and all lines are alike as far as the header goes
  have hget : ∀ k < maxLines, (ls.take maxLines)[k]? = ls[k]? :=
    fun k hk => List.getElem?_take_of_lt hk
  have htake : ∀ k < maxLines, (ls.take maxLines).take k = ls.take k := by
    intro k hk
    rw [List.take_take, Nat.min_eq_left hk.le]
  rw [hsnd, snd_capture, reach?_eq_some_iff]
  simp only [List.nil_append]
  constructor
  · rintro ⟨⟨k, line, rfl, hline, hends⟩, hgoesOn⟩
    have hk : k < maxLines := by
      have hlength := (List.getElem?_eq_some_iff.1 hline).1
      rw [List.length_take] at hlength
      omega
    rw [hget k hk] at hline
    rw [htake k hk] at hends
    refine ⟨hk, ⟨k, line, rfl, hline, hends⟩, fun k' line' hk' hline' => ?_⟩
    have hlt : k' < maxLines := by omega
    rw [← htake k' hlt]
    exact hgoesOn k' line' hk' ((hget k' hlt).trans hline')
  · rintro ⟨hle, ⟨k, line, rfl, hline, hends⟩, hgoesOn⟩
    refine ⟨⟨k, line, rfl, (hget k hle).trans hline, (htake k hle).symm ▸ hends⟩,
      fun k' line' hk' hline' => ?_⟩
    have hlt : k' < maxLines := by omega
    rw [htake k' hlt]
    exact hgoesOn k' line' hk' ((hget k' hlt).symm.trans hline')

-- ===================================================================== headers

/-- A signature and the lines that it was captured over. -/
structure Header where
  /-- How many lines stand in front of it. -/
  first : Nat
  /-- How many lines it takes. -/
  taken : Nat
  signature : Text
deriving DecidableEq

/-- A header takes a line behind its first. -/
def Header.Swallows (h : Header) (j : Nat) : Prop :=
  h.first < j ∧ j < h.first + h.taken

/-- The headers of some lines that stand behind others, when the first `skip` of
them belong to a header before. -/
def headersFrom (language : Language) : (before skip : Nat) → List Text → List Header
  | _, _, [] => []
  | before, skip + 1, _ :: rest => headersFrom language (before + 1) skip rest
  | before, 0, line :: rest =>
    if startsAt language line then
      match capture language (line :: rest) with
      | some (signature, taken) =>
        ⟨before, taken, signature⟩ :: headersFrom language (before + 1) (taken - 1) rest
      | none => headersFrom language (before + 1) 0 rest
    else headersFrom language (before + 1) 0 rest

/-- The headers of a text from its first line on. -/
def headers (language : Language) (ls : List Text) : List Header :=
  headersFrom language 0 0 ls

theorem map_signature_headersFrom :
    (headersFrom language n skip ls).map Header.signature = collect language skip ls := by
  fun_induction headersFrom language n skip ls with
  | case1 n skip => cases skip <;> rfl
  | case2 n skip line rest ih => exact ih
  | case3 n line rest hstarts signature taken hcapture ih =>
      rw [collect, if_pos hstarts, hcapture, List.map_cons, ih]
  | case4 n line rest hstarts hcapture ih => rw [collect, if_pos hstarts, hcapture, ih]
  | case5 n line rest hstarts ih => rw [collect, if_neg hstarts, ih]

/-- A header stands where its signature is captured, behind the lines that were
skipped. -/
theorem of_mem_headersFrom {h : Header} (hmem : h ∈ headersFrom language n skip ls) :
    ∃ i line, h.first = n + i ∧ skip ≤ i ∧ ls[i]? = some line
      ∧ startsAt language line = true
      ∧ capture language (ls.drop i) = some (h.signature, h.taken) := by
  fun_induction headersFrom language n skip ls with
  | case1 => cases hmem
  | case2 n skip _ rest ih =>
      obtain ⟨i, line, hfirst, hskip, hrest⟩ := ih hmem
      exact ⟨i + 1, line, by omega, by omega, hrest⟩
  | case3 n line rest hstarts signature taken hcapture ih =>
      rcases List.mem_cons.1 hmem with rfl | hmem
      · exact ⟨0, line, rfl, Nat.le_refl 0, rfl, hstarts, hcapture⟩
      · obtain ⟨i, line, hfirst, -, hrest⟩ := ih hmem
        exact ⟨i + 1, line, by omega, Nat.zero_le _, hrest⟩
  | case4 n _ rest _ _ ih | case5 n _ rest _ ih =>
      obtain ⟨i, line, hfirst, -, hrest⟩ := ih hmem
      exact ⟨i + 1, line, by omega, Nat.zero_le _, hrest⟩

/-- A line that starts a header is the first line of one, or was skipped, or is
swallowed. -/
theorem mem_or_swallowed (hj : j = n + i) (hline : ls[i]? = some line)
    (hstarts : startsAt language line = true)
    (hcapture : capture language (ls.drop i) = some (signature, taken)) :
    i < skip ∨ ⟨j, taken, signature⟩ ∈ headersFrom language n skip ls
      ∨ ∃ h ∈ headersFrom language n skip ls, h.Swallows j := by
  fun_induction headersFrom language n skip ls generalizing i with
  | case1 => cases hline
  | case2 n skip _ rest ih =>
      cases i with
      | zero => exact .inl (Nat.zero_lt_succ skip)
      | succ i => exact (ih (by omega) hline hcapture).imp_left Nat.succ_lt_succ
  | case3 n first rest _ signature' taken' hcapture' ih =>
      cases i with
      | zero =>
          obtain ⟨rfl, rfl⟩ := Prod.mk.inj (Option.some.inj (hcapture'.symm.trans hcapture))
          obtain rfl : j = n := hj
          exact .inr (.inl (List.mem_cons_self ..))
      | succ i =>
          rcases ih (by omega) hline hcapture with hskip | hmem | ⟨h, hmem, hswallows⟩
          · refine .inr (.inr ⟨_, List.mem_cons_self .., ?_⟩)
            unfold Header.Swallows
            dsimp only
            omega
          · exact .inr (.inl (List.mem_cons_of_mem _ hmem))
          · exact .inr (.inr ⟨h, List.mem_cons_of_mem _ hmem, hswallows⟩)
  | case4 n first rest _ hnone ih =>
      cases i with
      | zero => cases hnone.symm.trans hcapture
      | succ i =>
          exact .inr ((ih (by omega) hline hcapture).resolve_left (Nat.not_lt_zero i))
  | case5 n first rest hnot ih =>
      cases i with
      | zero =>
          obtain rfl := Option.some.inj hline
          exact absurd hstarts hnot
      | succ i =>
          exact .inr ((ih (by omega) hline hcapture).resolve_left (Nat.not_lt_zero i))

/-- Each header ends before the next one starts. -/
theorem pairwise_headersFrom :
    (headersFrom language n skip ls).Pairwise fun h h' => h.first + h.taken ≤ h'.first := by
  fun_induction headersFrom language n skip ls with
  | case1 => exact List.Pairwise.nil
  | case2 _ _ _ _ ih => exact ih
  | case3 n line rest hstarts signature taken hcapture ih =>
      refine List.pairwise_cons.2 ⟨fun h hmem => ?_, ih⟩
      obtain ⟨i, -, hfirst, hskip, -⟩ := of_mem_headersFrom hmem
      dsimp only
      omega
  | case4 _ _ _ _ _ ih => exact ih
  | case5 _ _ _ _ ih => exact ih

/-- No header takes the first line of another. -/
theorem not_swallows_first {h h' : Header} (hmem : h ∈ headers language ls)
    (hmem' : h' ∈ headers language ls) : ¬ h'.Swallows h.first := by
  intro hswallows
  have hapart : (headers language ls).Pairwise fun a b =>
      a.first + a.taken ≤ b.first ∨ b.first + b.taken ≤ a.first :=
    pairwise_headersFrom.imp Or.inl
  have hsymm : Std.Symm fun a b : Header =>
      a.first + a.taken ≤ b.first ∨ b.first + b.taken ≤ a.first := ⟨fun _ _ => Or.symm⟩
  have hne : h' ≠ h := by
    rintro rfl
    exact Nat.lt_irrefl _ hswallows.1
  have hfar := hapart.forall hmem' hmem hne
  obtain ⟨hfirst, hlast⟩ := hswallows
  omega

-- ================================================================== swallowing

/-- One of some lines starts a header. -/
def Starts (language : Language) (ls : List Text) (i : Nat) : Prop :=
  ∃ line, ls[i]? = some line ∧ startsAt language line = true

/-- A line that starts a header with an end is the first line of one or is
swallowed. -/
theorem exists_mem_or_swallowed (hstarts : Starts language ls i)
    (hends : EndsAfter language (ls.drop i) taken) :
    (∃ signature, capture language (ls.drop i) = some (signature, taken)
        ∧ ⟨i, taken, signature⟩ ∈ headers language ls)
      ∨ ∃ h ∈ headers language ls, h.Swallows i := by
  obtain ⟨line, hline, hstarts⟩ := hstarts
  obtain ⟨signature, hcapture⟩ := exists_capture_iff.2 hends
  have hcases : i < 0 ∨ ⟨i, taken, signature⟩ ∈ headers language ls
      ∨ ∃ h ∈ headers language ls, h.Swallows i :=
    mem_or_swallowed (Nat.zero_add i).symm hline hstarts hcapture
  rcases hcases
    with hskip | hmem | hswallowed
  · exact absurd hskip (Nat.not_lt_zero i)
  · exact .inl ⟨signature, hcapture, hmem⟩
  · exact .inr hswallowed

/-- A header stands where a header starts and ends. -/
theorem starts_of_mem {h : Header} (hmem : h ∈ headers language ls) :
    Starts language ls h.first ∧ EndsAfter language (ls.drop h.first) h.taken := by
  obtain ⟨i, line, hfirst, -, hline, hstarts, hcapture⟩ := of_mem_headersFrom hmem
  obtain rfl : h.first = i := by omega
  exact ⟨⟨line, hline, hstarts⟩, exists_capture_iff.1 ⟨_, hcapture⟩⟩

/-- A header that ends on the line that starts it takes that line alone. -/
theorem endsAfter_one (hline : ls[i]? = some line)
    (hends : endsOn language [] line = true) : EndsAfter language (ls.drop i) 1 := by
  refine ⟨by decide, ⟨0, line, rfl, ?_, hends⟩, fun k _ hk => by omega⟩
  rw [List.getElem?_drop, Nat.add_zero, hline]

/-- The signatures of a text are those of its headers. No header swallows a line
that starts one exactly when no two lines that start a header stand so that the
header from the first, were it alone, would take the second. A line that starts a
header and ends it gives a signature of its own exactly when it is not
swallowed. -/
theorem none_swallowed_iff (language : Language) (content : Text) :
    let ls := Text.lines content
    let hs := headers language ls
    hs.map Header.signature = all language content
      ∧ ((∀ j, Starts language ls j → ∀ h ∈ hs, ¬ h.Swallows j)
        ↔ ∀ i j taken, Starts language ls i → EndsAfter language (ls.drop i) taken →
          Starts language ls j → ¬ (i < j ∧ j < i + taken))
      ∧ ∀ j line, ls[j]? = some line → startsAt language line = true →
        endsOn language [] line = true →
        ((∃ signature, capture language (ls.drop j) = some (signature, 1)
            ∧ ⟨j, 1, signature⟩ ∈ hs)
          ↔ ∀ h ∈ hs, ¬ h.Swallows j) := by
  intro ls hs
  refine ⟨map_signature_headersFrom, ⟨?_, ?_⟩, ?_⟩
  · intro hnone i j taken hi hends hj htakes
    rcases exists_mem_or_swallowed hi hends with ⟨signature, -, hmem⟩ | ⟨h, hmem, hswallows⟩
    · exact hnone j hj _ hmem htakes
    · exact hnone i hi h hmem hswallows
  · intro halone j hj h hmem hswallows
    obtain ⟨hstarts, hends⟩ := starts_of_mem hmem
    exact halone h.first j h.taken hstarts hends hj hswallows
  · intro j line hline hstarts hends
    constructor
    · rintro ⟨signature, -, hmem⟩ h hmem'
      exact not_swallows_first hmem hmem'
    · intro hnone
      refine (exists_mem_or_swallowed ⟨line, hline, hstarts⟩
        (endsAfter_one hline hends)).resolve_right ?_
      rintro ⟨h, hmem, hswallows⟩
      exact hnone h hmem hswallows

/-- A header over three lines in front of two on one line each. -/
theorem none_swallowed_behind_broken_header :
    let content : Text := "fn g(\n    a: u8,\n) \x7b\nfn f() \x7b\x7d\nstruct A;\n"
    let ls := Text.lines content
    ls[3]? = some "fn f() \x7b\x7d".toList
      ∧ startsAt .rust "fn f() \x7b\x7d" = true ∧ endsOn .rust [] "fn f() \x7b\x7d" = true
      ∧ (headers .rust ls).map (fun h => (h.first, h.taken)) = [(0, 3), (3, 1), (4, 1)]
      ∧ ∀ h ∈ headers .rust ls, ¬ h.Swallows 3 := by
  intro content ls
  have hline : ls[3]? = some "fn f() \x7b\x7d".toList := by decide +kernel
  have hstarts : startsAt .rust "fn f() \x7b\x7d" = true := by decide +kernel
  have hends : endsOn .rust [] "fn f() \x7b\x7d" = true := by decide +kernel
  have hmem : ⟨3, 1, "fn f() \x7b ... \x7d"⟩ ∈ headers .rust ls := by decide +kernel
  have hcapture : capture .rust (ls.drop 3) = some ("fn f() \x7b ... \x7d".toList, 1) := by
    decide +kernel
  have hown := (none_swallowed_iff .rust content).2.2 3 _ hline hstarts hends
  exact ⟨hline, hstarts, hends, by decide +kernel, hown.1 ⟨_, hcapture, hmem⟩⟩

/-- A function whose body is an expression has no brace and takes the function
behind it along. -/
theorem all_of_expression_body :
    let content : Text := "fun a() = 1\nfun b() \x7b\n\x7d\n"
    let ls := Text.lines content
    Starts .kotlin ls 1
      ∧ headers .kotlin ls = [⟨0, 2, "fun a() = 1 fun b() \x7b ... \x7d"⟩]
      ∧ all .kotlin content = ["fun a() = 1 fun b() \x7b ... \x7d".toList]
      ∧ ¬ ∀ j, Starts .kotlin ls j → ∀ h ∈ headers .kotlin ls, ¬ h.Swallows j := by
  intro content ls
  have hstarts : Starts .kotlin ls 1 :=
    ⟨"fun b() \x7b", by decide +kernel, by decide +kernel⟩
  have hheaders : headers .kotlin ls = [⟨0, 2, "fun a() = 1 fun b() \x7b ... \x7d"⟩] := by
    decide +kernel
  refine ⟨hstarts, hheaders, by decide +kernel, fun hnone => ?_⟩
  refine hnone 1 hstarts ⟨0, 2, "fun a() = 1 fun b() \x7b ... \x7d"⟩ ?_
    ⟨by decide, by decide⟩
  rw [hheaders]
  exact List.mem_singleton_self _

end Signature

end SourceDigest
