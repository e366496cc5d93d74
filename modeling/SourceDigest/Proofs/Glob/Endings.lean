/-
Globs that are comparisons of endings.

A glob `*.ext` is matched by looking at how a path ends. Its shape says
nearly the same: whole segments, and then one segment with that ending.
The two part where a line feed stands in front of the last slash, because
whole segments are found within a line and an ending is found anywhere
(`isMatch_compile_eq_iff`, and `compile_isMatch_of_broken_directory` for
a path on which they part). In the last segment a line feed does no harm.
-/
import SourceDigest.Proofs.Glob.Segments

namespace SourceDigest

namespace Glob

-- ===================================================================== shapes

/-- What a glob with a short form looks like. -/
theorem suffix?_eq_some {glob tail : Text} (h : suffix? glob = some tail) :
    glob = '*' :: tail ∧ (∀ c ∈ tail, isWildcard c = false) ∧ '/' ∉ tail
      ∧ tail ≠ [] := by
  unfold suffix? at h
  split at h
  case h_2 => cases h
  case h_1 ext =>
    by_cases hext :
        (ext = [] || ext.any (fun c => isWildcard c || c == '/')) = true
    · rw [if_pos hext] at h
      cases h
    · rw [if_neg hext, Option.some.injEq] at h
      subst h
      simp only [Bool.or_eq_true, decide_eq_true_eq, not_or, List.any_eq_true,
        not_exists, not_and, beq_iff_eq] at hext
      refine ⟨rfl, fun c hc => ?_, fun hs => ?_, List.cons_ne_nil _ _⟩
      · rcases List.mem_cons.1 hc with rfl | hc
        · rfl
        · exact Bool.eq_false_iff.2 (hext.2 c hc).1
      · rcases List.mem_cons.1 hs with hs | hs
        · cases hs
        · exact (hext.2 '/' hs).2 rfl

/-- A segment without wildcards fits only itself. -/
theorem segmentFits_plain {g s : Text} (h : ∀ c ∈ g, isWildcard c = false) :
    SegmentFits g s ↔ s = g := by
  induction g generalizing s with
  | nil => exact segmentFits_nil
  | cons c g ih =>
      rw [segmentFits_char (h c (List.mem_cons_self ..))]
      have ih := fun {s} => ih (s := s) fun d hd =>
        h d (List.mem_cons_of_mem _ hd)
      constructor
      · intro hs
        obtain ⟨b, rfl, hb⟩ := hs
        rw [ih.1 hb]
      · intro hs
        exact ⟨g, hs, ih.2 rfl⟩

/-- The parts of a path that fit a star and an ending. -/
theorem part_star_iff {tail s : Text} (h : ∀ c ∈ tail, isWildcard c = false) :
    Part ('*' :: tail) s ↔ tail <:+ s ∧ '/' ∉ s := by
  unfold Part
  rw [segmentFits_run]
  simp only [segmentFits_plain h]
  refine and_congr_left fun _ => ⟨fun hs => ?_, fun hs => ?_⟩
  · obtain ⟨a, b, rfl, rfl⟩ := hs
    exact List.suffix_append a b
  · obtain ⟨a, rfl⟩ := hs
    exact ⟨a, tail, rfl, rfl⟩

/-- The plan of a glob with a short form: one segment, anywhere, with
nothing below it. -/
theorem plan_of_suffix? {glob tail : Text} (h : suffix? glob = some tail) :
    plan glob = ⟨true, [glob], false⟩ := by
  obtain ⟨rfl, -, hslash, hne⟩ := suffix?_eq_some h
  have hlast : ('*' :: tail).getLast? ≠ some '/' := by
    intro hl
    obtain ⟨front, hf⟩ := List.getLast?_eq_some_iff.1 hl
    have hmem : '/' ∈ '*' :: tail := by
      rw [hf]
      simp
    rcases List.mem_cons.1 hmem with hc | hc
    · cases hc
    · exact hslash hc
  have hbody : '/' ∉ '*' :: tail := by simp [hslash]
  unfold plan
  simp [hlast, hslash, Text.splitOn_of_notMem hbody, isWildcard]

-- ================================================================ last segments

/-- A line feed stands in front of a slash. -/
def BrokenDirectory (path : Text) : Prop :=
  ∃ a b, path = a ++ '\n' :: b ∧ '/' ∈ b

/-- A path with a slash is cut at its last one. -/
theorem exists_last_slash {path : Text} (h : '/' ∈ path) :
    ∃ a name, path = a ++ '/' :: name ∧ '/' ∉ name := by
  obtain ⟨s, t, hst, hn⟩ := List.eq_append_cons_of_mem (List.mem_reverse.2 h)
  refine ⟨t.reverse, s.reverse, ?_, fun hs => hn (List.mem_reverse.1 hs)⟩
  rw [← List.reverse_reverse path, hst]
  simp

/-- An ending without slashes of a path is one of its last segment. -/
private theorem suffix_of_last_segment {tail a name : Text}
    (hslash : '/' ∉ tail)
    (h : tail <:+ a ++ '/' :: name) : tail <:+ name := by
  have hname := List.suffix_append a ('/' :: name)
  rcases List.suffix_or_suffix_of_suffix h hname with h | h
  · rcases List.suffix_cons_iff.1 h with rfl | h
    · exact absurd (List.mem_cons_self ..) hslash
    · exact h
  · exact absurd (h.subset (List.mem_cons_self ..)) hslash

/-- Whole segments and then one with an ending: an ending of the path, with
no line feed in front of its last slash. -/
theorem then_segments_ending_iff {tail path : Text} (hslash : '/' ∉ tail) :
    Then (Token.segments.Spells false) (fun s => tail <:+ s ∧ '/' ∉ s) path
      ↔ tail <:+ path ∧ ¬ BrokenDirectory path := by
  rw [then_segments false]
  constructor
  · intro h
    rcases h with ⟨htail, hn⟩
      | ⟨a, _, rfl, ha, _, name, rfl, ⟨c, rfl, hc⟩, htail, hn⟩
    · refine ⟨htail, fun hbroken => ?_⟩
      obtain ⟨a, b, rfl, hb⟩ := hbroken
      exact hn (List.mem_append_right _ (List.mem_cons_of_mem _ hb))
    · have hc : c = '/' := by simpa [isSlash] using hc
      subst hc
      refine ⟨(htail.trans (List.suffix_cons ..)).trans (List.suffix_append ..),
        fun hbroken => ?_⟩
      obtain ⟨front, back, hsplit, hback⟩ := hbroken
      -- the line feed stands either before the last slash or in the last segment
      rcases List.append_eq_append_iff.1 hsplit with ⟨m, rfl, hm⟩ | ⟨m, rfl, hm⟩
      · cases m with
        | nil => cases hm
        | cons d m =>
            obtain ⟨-, hm⟩ := List.cons.inj hm
            refine hn ?_
            rw [show name = m ++ '\n' :: back from hm]
            exact List.mem_append_right _ (List.mem_cons_of_mem _ hback)
      · cases m with
        | nil => cases hm
        | cons d m =>
            obtain ⟨hd, -⟩ := List.cons.inj hm
            have := ha d (List.mem_append_right _ (List.mem_cons_self ..))
            rw [← hd] at this
            cases this
  · intro h
    obtain ⟨htail, hbroken⟩ := h
    by_cases hpath : '/' ∈ path
    · obtain ⟨a, name, rfl, hn⟩ := exists_last_slash hpath
      refine Or.inr ⟨a, '/' :: name, rfl, fun c hc => ?_,
        ['/'], name, rfl, ⟨'/', rfl, rfl⟩,
        suffix_of_last_segment hslash htail, hn⟩
      simp only [isInLine, bne_iff_ne, ne_eq]
      intro hfeed
      subst hfeed
      obtain ⟨front, back, rfl⟩ := List.append_of_mem hc
      refine hbroken ⟨front, back ++ '/' :: name, by simp, ?_⟩
      exact List.mem_append_right _ (List.mem_cons_self ..)
    · exact Or.inl ⟨htail, hpath⟩

/-- What the shape of a glob with a short form covers. -/
theorem covers_of_suffix? {glob tail path : Text}
    (h : suffix? glob = some tail) :
    (shape glob).covers false path = true
      ↔ tail <:+ path ∧ ¬ BrokenDirectory path := by
  have hplan := plan_of_suffix? h
  obtain ⟨rfl, hplain, hslash, -⟩ := suffix?_eq_some h
  have hstars : ¬ stars <:+: '*' :: tail := by
    intro hinfix
    obtain ⟨front, back, hsplit⟩ := hinfix
    have hmem : '*' ∈ tail := by
      cases front with
      | nil =>
          have := (List.cons.inj hsplit).2
          rw [← this]
          exact List.mem_cons_self ..
      | cons c front =>
          have := (List.cons.inj hsplit).2
          rw [← this]
          simp [stars]
    have := hplain '*' hmem
    cases this
  have hbody : '/' ∉ '*' :: tail := by simp [hslash]
  rw [covers_iff, shape_body, shape_coversBelow, hplan, if_pos rfl,
    Text.join_singleton, spelled_append]
  rw [← then_segments_ending_iff hslash]
  refine then_congr (fun _ => Iff.rfl) fun s => ?_
  show Spelled false (tokens ('*' :: tail)) (Ends false) s ↔ _
  rw [spelled_segment_iff hbody hstars, ← part_star_iff hplain]
  constructor
  · intro hs
    obtain ⟨a, b, rfl, ha, rfl | ⟨hb, -⟩⟩ := hs
    · rwa [List.append_nil]
    · cases hb
  · intro hs
    exact ⟨s, [], (List.append_nil s).symm, hs, Or.inl rfl⟩

-- ================================================================ the two forms

/-- A glob with a short form is matched by endings. -/
theorem isMatch_compile_of_suffix? {glob tail : Text} (path : Text)
    (h : suffix? (normalizeGlob glob) = some tail) :
    (compile glob).isMatch path = true ↔ tail <:+ normalizePath path := by
  have htest : testOf (normalizeGlob glob) false = .suffix tail := by
    unfold testOf
    rw [h]
    rfl
  have hcompile : (compile glob).test = .suffix tail := htest
  unfold isMatch accepts
  rw [hcompile, ← Text.endsWith_iff]
  rfl

/-- The two ways to match a glob with a short form agree on a path exactly
if it does not end as the glob asks with a line feed in front of its last
slash. -/
theorem isMatch_compile_eq_iff {tail : Text} (glob path : Text)
    (hshort : suffix? (normalizeGlob glob) = some tail)
    (hfits : (shape (normalizeGlob glob)).fits = true) :
    (compile glob).isMatch path = (compileGeneral glob).isMatch path
      ↔ ¬ (tail <:+ normalizePath path
        ∧ BrokenDirectory (normalizePath path)) := by
  rw [Bool.eq_iff_iff, isMatch_compile_of_suffix? path hshort,
    isMatch_compileGeneral path hfits, covers_of_suffix? hshort]
  constructor
  · intro h hboth
    exact (h.1 hboth.1).2 hboth.2
  · intro h
    exact ⟨fun htail => ⟨htail, fun hbroken => h ⟨htail, hbroken⟩⟩,
      fun hcovers => hcovers.1⟩

/-- On a path without line feeds they agree. -/
theorem isMatch_compile_eq_on_line :
    suffix? (normalizeGlob "*.tar.gz".toList) = some ".tar.gz".toList ∧
    (shape (normalizeGlob "*.tar.gz".toList)).fits = true ∧
    (compile "*.tar.gz".toList).isMatch "dist/pkg.tar.gz".toList
      = (compileGeneral "*.tar.gz".toList).isMatch
        "dist/pkg.tar.gz".toList := by
  refine ⟨by decide, by decide, (isMatch_compile_eq_iff _ _
    (show _ = some ".tar.gz".toList by decide) (by decide)).2 fun h => ?_⟩
  obtain ⟨-, a, b, hab, -⟩ := h
  have hmem : '\n' ∈ normalizePath "dist/pkg.tar.gz".toList := by
    rw [hab]
    simp
  exact absurd hmem (by decide)

/-- A line feed in a directory parts them: by its ending the path matches,
by the shape of the glob it does not. -/
theorem compile_isMatch_of_broken_directory :
    suffix? (normalizeGlob "*.rs".toList) = some ".rs".toList ∧
    (shape (normalizeGlob "*.rs".toList)).fits = true ∧
    (compile "*.rs".toList).isMatch "a\nb/c.rs".toList = true ∧
    (compileGeneral "*.rs".toList).isMatch "a\nb/c.rs".toList = false := by
  decide

end Glob

end SourceDigest
