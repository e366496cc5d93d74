/-
Globs read segment by segment.

# The reading

A glob names its segments one by one (`Plan`): a segment of two stars skips
whole segments of a path, or as the last one takes all that is left, at
least one; any other segment takes one segment of the path, `*` in it
standing for any characters, `?` for one, all else for itself
(`SegmentFits`, `SegmentsFit`). A trailing slash marks a directory, a
leading one ties the glob to the root, and a glob of one segment without
either may start anywhere (`plan`).

# The result

`isMatch_compileGeneral_iff`: as long as no segment mixes two adjacent
stars with anything else, a glob matches a path of one line exactly when
the segments of the path fit its plan. Matching itself knows nothing of
segments; it reads units off the glob from left to right. The bridge is
`spelled_join_iff`, an induction on the segments of the glob: each of them
spells what stands before a slash, or whole segments with their slashes,
and the rest of the glob spells the rest of the path.
-/
import SourceDigest.Proofs.Glob.NormalPaths
import SourceDigest.Proofs.Glob.Spelling

namespace SourceDigest

namespace Glob

-- ================================================================ the reading

/-- The segment that stands for whole segments. -/
def stars : Text := ['*', '*']

/-- A segment of a path fits a segment of a glob. -/
inductive SegmentFits : Text → Text → Prop where
  | nil : SegmentFits [] []
  | run {g s : Text} (skipped : Text) :
      SegmentFits g s → SegmentFits ('*' :: g) (skipped ++ s)
  | single {g s : Text} (c : Char) :
      SegmentFits g s → SegmentFits ('?' :: g) (c :: s)
  | char {c : Char} {g s : Text} :
      isWildcard c = false → SegmentFits g s → SegmentFits (c :: g) (c :: s)

/-- The segments of a path fit those of a glob, which may cover what lies
below its last one. -/
inductive SegmentsFit (below : Bool) : List Text → List Text → Prop where
  | done : SegmentsFit below [] []
  | beneath (more : List Text) : below = true → SegmentsFit below [] more
  | all {path : List Text} : path ≠ [] → SegmentsFit below [stars] path
  | skip {gs path : List Text} (skipped : List Text) :
      gs ≠ [] → SegmentsFit below gs path →
        SegmentsFit below (stars :: gs) (skipped ++ path)
  | segment {g s : Text} {gs path : List Text} :
      g ≠ stars → SegmentFits g s → SegmentsFit below gs path →
        SegmentsFit below (g :: gs) (s :: path)

/-- What a glob says, by its segments. -/
structure Plan where
  /-- Whether it may start at any segment of a path. -/
  free : Bool
  segments : List Text
  /-- Whether it covers what lies below its last segment. -/
  below : Bool

/-- The segments of a path fit a plan. -/
def Plan.Fits (p : Plan) (path : List Text) : Prop :=
  ∃ skipped rest, path = skipped ++ rest ∧ (p.free = true ∨ skipped = []) ∧
    SegmentsFit p.below p.segments rest

/-- The plan of a normalized glob. Of a glob longer than one character a
trailing slash is taken off, and then a leading one; what is left is split
into segments. -/
def plan (glob : Text) : Plan :=
  let directory := 1 < glob.length && glob.getLast? == some '/'
  let named := if directory then glob.dropLast else glob
  let anchored := named.head? == some '/'
  let body := if anchored then named.tail else named
  { free := !anchored && !body.contains '/'
    segments := Text.splitOn '/' body
    below :=
      directory || !((Text.splitOn '/' body).getLastD []).any isWildcard }

/-- A segment of two stars, or one without two adjacent stars. -/
def Regular (segment : Text) : Prop := segment = stars ∨ ¬ stars <:+: segment

instance : DecidablePred Regular :=
  fun segment =>
    inferInstanceAs (Decidable (segment = stars ∨ ¬ stars <:+: segment))

-- =================================================================== segments

/-- Where a segment of the glob ends the segment of the path must. -/
theorem segmentFits_nil {s : Text} : SegmentFits [] s ↔ s = [] := by
  constructor
  · intro h
    cases h
    rfl
  · intro h
    subst h
    exact .nil

/-- A star stands for any front part. -/
theorem segmentFits_run {g s : Text} :
    SegmentFits ('*' :: g) s ↔ ∃ a b, s = a ++ b ∧ SegmentFits g b := by
  constructor
  · intro h
    cases h with
    | run skipped h => exact ⟨skipped, _, rfl, h⟩
    | char hc _ => cases hc
  · intro h
    obtain ⟨a, b, rfl, h⟩ := h
    exact .run a h

/-- A question mark stands for one character. -/
theorem segmentFits_single {g s : Text} :
    SegmentFits ('?' :: g) s ↔ ∃ c b, s = c :: b ∧ SegmentFits g b := by
  constructor
  · intro h
    cases h with
    | single c h => exact ⟨c, _, rfl, h⟩
    | char hc _ => cases hc
  · intro h
    obtain ⟨c, b, rfl, h⟩ := h
    exact .single c h

/-- Any other character stands for itself. -/
theorem segmentFits_char {c : Char} {g s : Text} (hc : isWildcard c = false) :
    SegmentFits (c :: g) s ↔ ∃ b, s = c :: b ∧ SegmentFits g b := by
  constructor
  · intro h
    cases h with
    | run => cases hc
    | single => cases hc
    | char _ h => exact ⟨_, rfl, h⟩
  · intro h
    obtain ⟨b, rfl, h⟩ := h
    exact .char hc h

/-- What is left after the last segment of a glob. -/
theorem segmentsFit_nil {below : Bool} {path : List Text} :
    SegmentsFit below [] path ↔ path = [] ∨ below = true := by
  constructor
  · intro h
    cases h with
    | done => exact Or.inl rfl
    | beneath _ h => exact Or.inr h
  · intro h
    rcases h with rfl | h
    · exact .done
    · exact .beneath path h

/-- A glob with segments left takes a segment of the path. -/
theorem SegmentsFit.ne_nil {below : Bool} {gs path : List Text}
    (h : SegmentsFit below gs path) (hg : gs ≠ []) : path ≠ [] := by
  induction h with
  | done => exact absurd rfl hg
  | beneath => exact absurd rfl hg
  | all h => exact h
  | skip _ hgs _ ih => exact List.append_ne_nil_of_right_ne_nil _ (ih hgs)
  | segment => exact List.cons_ne_nil _ _

/-- Two stars stand for any number of segments. -/
theorem segmentsFit_stars {below : Bool} {gs path : List Text} (hg : gs ≠ []) :
    SegmentsFit below (stars :: gs) path
      ↔ ∃ skipped rest, path = skipped ++ rest ∧ SegmentsFit below gs rest := by
  constructor
  · intro h
    cases h with
    | all => exact absurd rfl hg
    | skip skipped _ h => exact ⟨skipped, _, rfl, h⟩
    | segment h => exact absurd rfl h
  · intro h
    obtain ⟨skipped, rest, rfl, h⟩ := h
    exact .skip skipped hg h

/-- Any other segment of the glob stands for one of the path. -/
theorem segmentsFit_segment {below : Bool} {g : Text} {gs path : List Text}
    (hg : g ≠ stars) :
    SegmentsFit below (g :: gs) path
      ↔ ∃ s rest, path = s :: rest ∧ SegmentFits g s
        ∧ SegmentsFit below gs rest := by
  constructor
  · intro h
    cases h with
    | all => exact absurd rfl hg
    | skip => exact absurd rfl hg
    | segment _ hs h => exact ⟨_, _, rfl, hs, h⟩
  · intro h
    obtain ⟨s, rest, rfl, hs, h⟩ := h
    exact .segment hg hs h

-- ====================================================================== units

/-- A star that no star follows is a run. -/
theorem tokens_run {rest : Text} (h : rest.head? ≠ some '*') :
    tokens ('*' :: rest) = .run :: tokens rest := by
  rw [tokens]
  · intro r hr
    exact h (by rw [hr, List.head?_cons])
  · intro r hr
    exact h (by rw [hr, List.head?_cons])

/-- Two stars that no slash follows are anything. -/
theorem tokens_anything {rest : Text} (h : rest.head? ≠ some '/') :
    tokens ('*' :: '*' :: rest) = .anything :: tokens rest := by
  rw [tokens]
  intro r hr
  exact h (by rw [hr, List.head?_cons])

/-- A character that is no wildcard stands for itself. -/
theorem tokens_char {c : Char} (hc : isWildcard c = false) (rest : Text) :
    tokens (c :: rest) = .char c :: tokens rest := by
  have hstar : c ≠ '*' := fun h => by simp [h, isWildcard] at hc
  have hmark : c ≠ '?' := fun h => by simp [h, isWildcard] at hc
  rw [tokens]
  · exact fun _ h _ => hstar h
  · exact fun _ h _ => hstar h
  · exact hstar
  · exact hmark

/-- Globs by the unit that is read off first. -/
theorem units_induction {motive : Text → Prop} (nil : motive [])
    (segments : ∀ rest, motive rest → motive ('*' :: '*' :: '/' :: rest))
    (anything : ∀ rest, rest.head? ≠ some '/' → motive rest →
      motive ('*' :: '*' :: rest))
    (run : ∀ rest, rest.head? ≠ some '*' → motive rest → motive ('*' :: rest))
    (single : ∀ rest, motive rest → motive ('?' :: rest))
    (char : ∀ c rest, isWildcard c = false → motive rest → motive (c :: rest))
    (t : Text) : motive t := by
  have hhead : ∀ {d : Char} {rest : Text}, (∀ r, rest = d :: r → False) →
      rest.head? ≠ some d := fun hrest h =>
    (List.head?_eq_some_iff.1 h).elim hrest
  induction t using tokens.induct with
  | case1 => exact nil
  | case2 rest ih => exact segments rest ih
  | case3 rest hrest ih => exact anything rest (hhead hrest) ih
  | case4 rest _ hrest ih => exact run rest (hhead hrest) ih
  | case5 rest ih => exact single rest ih
  | case6 c rest _ _ hstar hmark ih =>
      refine char c rest ?_ ih
      simp only [isWildcard, Bool.or_eq_false_iff, beq_eq_false_iff_ne]
      exact ⟨hstar, hmark⟩

/-- A segment without adjacent stars begins with at most one of them. -/
private theorem head?_ne_of_not_infix {c : Char} {g : Text}
    (h : ¬ stars <:+: c :: g)
    (hc : c = '*') : g.head? ≠ some '*' := by
  subst hc
  cases g with
  | nil => simp
  | cons d g =>
      intro hd
      rw [List.head?_cons, Option.some.injEq] at hd
      subst hd
      exact h ⟨[], g, rfl⟩

private theorem not_infix_of_cons {c : Char} {g : Text}
    (h : ¬ stars <:+: c :: g) :
    ¬ stars <:+: g :=
  fun hg => h (List.infix_cons hg)

/-- The units of a segment are read off before those of what follows a
slash. -/
theorem tokens_append_slash {g : Text} (h : ¬ stars <:+: g) (rest : Text) :
    tokens (g ++ '/' :: rest) = tokens g ++ .char '/' :: tokens rest := by
  induction g with
  | nil => exact tokens_char rfl rest
  | cons c g ih =>
      have ih := ih (not_infix_of_cons h)
      by_cases hstar : c = '*'
      · have hg := head?_ne_of_not_infix h hstar
        subst hstar
        have hgs : (g ++ '/' :: rest).head? ≠ some '*' := by
          cases g with
          | nil => simp
          | cons d g => simpa using hg
        rw [List.cons_append, tokens_run hgs, tokens_run hg, ih,
          List.cons_append]
      · by_cases hmark : c = '?'
        · subst hmark
          show Token.single :: tokens (g ++ '/' :: rest) = _
          rw [ih]
          rfl
        · have hc : isWildcard c = false := by simp [isWildcard, hstar, hmark]
          rw [List.cons_append, tokens_char hc, tokens_char hc, ih,
            List.cons_append]

-- =================================================================== spelling

/-- The parts of a path that fit a segment of a glob and hold no slash. -/
def Part (g s : Text) : Prop := SegmentFits g s ∧ '/' ∉ s

/-- The token of a star spells what a star fits. -/
theorem then_run_part {g s : Text} :
    Then (ManyOf isInSegment) (Part g) s ↔ Part ('*' :: g) s := by
  constructor
  · intro h
    obtain ⟨a, b, rfl, ha, hb, hn⟩ := h
    refine ⟨.run a hb, ?_⟩
    exact List.not_mem_append (fun h => by simpa [isInSegment] using ha _ h) hn
  · intro h
    obtain ⟨hs, hn⟩ := h
    obtain ⟨a, b, rfl, hb⟩ := segmentFits_run.1 hs
    rw [List.mem_append, not_or] at hn
    refine ⟨a, b, rfl, fun d hd => ?_, hb, hn.2⟩
    simp only [isInSegment, bne_iff_ne, ne_eq]
    intro h
    subst h
    exact hn.1 hd

/-- The token of a question mark spells what one fits. -/
theorem then_single_part {g s : Text} :
    Then (OneOf isInSegment) (Part g) s ↔ Part ('?' :: g) s := by
  constructor
  · intro h
    obtain ⟨a, b, rfl, ⟨d, rfl, hd⟩, hb, hn⟩ := h
    refine ⟨.single d hb, ?_⟩
    simp only [isInSegment, bne_iff_ne, ne_eq] at hd
    simp only [List.cons_append, List.nil_append, List.mem_cons, not_or]
    exact ⟨fun h => hd h.symm, hn⟩
  · intro h
    obtain ⟨hs, hn⟩ := h
    obtain ⟨d, b, rfl, hb⟩ := segmentFits_single.1 hs
    simp only [List.mem_cons, not_or] at hn
    refine ⟨[d], b, rfl, ⟨d, rfl, ?_⟩, hb, hn.2⟩
    simp only [isInSegment, bne_iff_ne, ne_eq]
    exact fun h => hn.1 h.symm

/-- The token of a character spells what it fits. -/
theorem then_char_part {c : Char} {g s : Text} (hc : isWildcard c = false)
    (hslash : '/' ≠ c) :
    Then ((Token.char c).Spells false) (Part g) s ↔ Part (c :: g) s := by
  constructor
  · intro h
    obtain ⟨a, b, rfl, ⟨d, rfl, hd⟩, hb, hn⟩ := h
    have hd : c = d := by simpa using hd
    subst hd
    refine ⟨.char hc hb, ?_⟩
    simp only [List.cons_append, List.nil_append, List.mem_cons, not_or]
    exact ⟨hslash, hn⟩
  · intro h
    obtain ⟨hs, hn⟩ := h
    obtain ⟨b, rfl, hb⟩ := (segmentFits_char hc).1 hs
    simp only [List.mem_cons, not_or] at hn
    exact ⟨[c], b, rfl, ⟨c, rfl, by simp⟩, hb, hn.2⟩

/-- What a segment spells in front of an end: a part that fits it. -/
theorem spelled_segment_iff {g : Text} (hslash : '/' ∉ g)
    (hstars : ¬ stars <:+: g)
    {last : Text → Prop} {t : Text} :
    Spelled false (tokens g) last t ↔ Then (Part g) last t := by
  induction g generalizing t with
  | nil =>
      constructor
      · intro h
        exact ⟨[], t, rfl, ⟨.nil, List.not_mem_nil⟩, h⟩
      · intro h
        obtain ⟨s, rest, rfl, ⟨hs, -⟩, h⟩ := h
        rw [segmentFits_nil.1 hs]
        exact h
  | cons c g ih =>
      simp only [List.mem_cons, not_or] at hslash
      -- a unit in front of parts that fit makes parts that fit one character more
      have hfront : ∀ {u : Token},
          (∀ s, Then (u.Spells false) (Part g) s ↔ Part (c :: g) s) →
          (Spelled false (u :: tokens g) last t
            ↔ Then (Part (c :: g)) last t) := by
        intro u hu
        rw [spelled_cons,
          then_congr (fun _ => Iff.rfl) fun t =>
            ih hslash.2 (not_infix_of_cons hstars) (t := t),
          ← then_assoc]
        exact then_congr hu fun _ => Iff.rfl
      by_cases hstar : c = '*'
      · have hg := head?_ne_of_not_infix hstars hstar
        subst hstar
        rw [tokens_run hg]
        exact hfront fun s => then_run_part
      · by_cases hmark : c = '?'
        · subst hmark
          exact hfront fun s => then_single_part
        · have hc : isWildcard c = false := by simp [isWildcard, hstar, hmark]
          rw [tokens_char hc]
          exact hfront fun s => then_char_part hc hslash.1

-- ============================================================= path by segment

/-- Over paths of one line a predicate on texts reads as one on segments. -/
def Reads (K : Text → Prop) (F : List Text → Prop) : Prop :=
  ∀ t : Text, '\n' ∉ t → (K t ↔ F (Text.splitOn '/' t))

theorem manyOf_isInLine {t : Text} (h : '\n' ∉ t) :
    ManyOf isInLine t := by
  intro c hc
  simp only [isInLine, bne_iff_ne, ne_eq]
  intro h
  subst h
  exact h hc

/-- Two stars at the end take all segments that are left. -/
theorem reads_all (below : Bool) :
    Reads (Then (ManyOf isInLine) (Ends below))
      (SegmentsFit below [stars]) := by
  intro t ht
  constructor
  · intro _
    exact .all (Text.splitOn_ne_nil '/' t)
  · intro _
    exact ⟨t, [], (List.append_nil t).symm, manyOf_isInLine ht, Or.inl rfl⟩

/-- The last segment takes one segment, and what lies below it if the glob
covers that. -/
theorem reads_last (below : Bool) {g : Text} (hg : g ≠ stars) :
    Reads (Then (Part g) (Ends below)) (SegmentsFit below [g]) := by
  intro t ht
  rw [segmentsFit_segment hg]
  simp only [segmentsFit_nil]
  constructor
  · intro h
    rcases h with ⟨s, rest, rfl, ⟨hs, hn⟩,
      rfl | ⟨hb, a, b, rfl, ⟨c, rfl, hc⟩, -⟩⟩
    · rw [List.append_nil, Text.splitOn_of_notMem hn]
      exact ⟨s, [], rfl, hs, Or.inl rfl⟩
    · have hc : c = '/' := by simpa [isSlash] using hc
      subst hc
      exact ⟨s, Text.splitOn '/' b, Text.splitOn_append_of_notMem hn b, hs,
        Or.inr hb⟩
  · intro h
    obtain ⟨s, more, hsplit, hs, hmore⟩ := h
    have hn : '/' ∉ s :=
      Text.notMem_of_mem_splitOn (t := t)
        (by rw [hsplit]; exact List.mem_cons_self ..)
    by_cases hnil : more = []
    · subst hnil
      refine ⟨s, [], ?_, ⟨hs, hn⟩, Or.inl rfl⟩
      rw [← Text.join_splitOn '/' t, hsplit, Text.join_singleton,
        List.append_nil]
    · have hb : below = true := hmore.resolve_left hnil
      rw [← List.singleton_append] at hsplit
      obtain ⟨htext, -⟩ :=
        Text.eq_append_of_splitOn_eq hsplit (List.cons_ne_nil s []) hnil
      rw [Text.join_singleton] at htext
      refine ⟨s, _, htext, ⟨hs, hn⟩,
        Or.inr ⟨hb, ['/'], _, rfl, ⟨'/', rfl, rfl⟩, ?_⟩⟩
      refine manyOf_isInLine fun h => ht ?_
      rw [htext]
      exact List.mem_append_right _ (List.mem_cons_of_mem _ h)
/-- Two stars in front skip segments of the path. -/
theorem reads_skip {K : Text → Prop} {F : List Text → Prop} (h : Reads K F)
    (hnil : ¬ F []) :
    Reads (Then (Token.segments.Spells false) K)
      fun path => ∃ skipped rest, path = skipped ++ rest ∧ F rest := by
  intro t ht
  rw [then_segments false]
  constructor
  · intro hK
    rcases hK with hK | ⟨a, _, rfl, -, b, rest, rfl, ⟨c, rfl, hc⟩, hrest⟩
    · exact ⟨[], Text.splitOn '/' t, rfl, (h t ht).1 hK⟩
    · have hc : c = '/' := by simpa [isSlash] using hc
      subst hc
      have hline : '\n' ∉ rest := fun hr =>
        ht (List.mem_append_right _ (List.mem_append_right _ hr))
      exact ⟨Text.splitOn '/' a, Text.splitOn '/' rest,
        Text.splitOn_append '/' a rest,
        (h rest hline).1 hrest⟩
  · intro hF
    obtain ⟨skipped, rest, hsplit, hF⟩ := hF
    have hrest : rest ≠ [] := fun he => hnil (he ▸ hF)
    by_cases hskip : skipped = []
    · subst hskip
      exact Or.inl ((h t ht).2 (by rw [hsplit]; exact hF))
    · obtain ⟨htext, hpieces⟩ := Text.eq_append_of_splitOn_eq hsplit hskip hrest
      have hline : '\n' ∉ Text.join ['/'] rest := fun hr =>
        ht (by
          rw [htext]
          exact List.mem_append_right _ (List.mem_cons_of_mem _ hr))
      have hlead : '\n' ∉ Text.join ['/'] skipped := fun hr =>
        ht (by rw [htext]; exact List.mem_append_left _ hr)
      refine Or.inr ⟨_, _, htext, manyOf_isInLine hlead, ['/'], _, rfl,
        ⟨'/', rfl, rfl⟩, ?_⟩
      exact (h _ hline).2 (by rw [hpieces]; exact hF)

/-- A segment in front takes one segment of the path. -/
theorem reads_segment {K : Text → Prop} {F : List Text → Prop} (g : Text)
    (h : Reads K F)
    (hnil : ¬ F []) :
    Reads (Then (Part g) (Then ((Token.char '/').Spells false) K))
      fun path => ∃ s rest, path = s :: rest ∧ SegmentFits g s ∧ F rest := by
  intro t ht
  constructor
  · intro hK
    obtain ⟨s, _, rfl, ⟨hs, hn⟩, b, rest, rfl, ⟨c, rfl, hc⟩, hrest⟩ := hK
    have hc : '/' = c := by simpa using hc
    subst hc
    have hline : '\n' ∉ rest := fun hr =>
      ht (List.mem_append_right _ (List.mem_append_right _ hr))
    exact ⟨s, Text.splitOn '/' rest, Text.splitOn_append_of_notMem hn rest, hs,
      (h rest hline).1 hrest⟩
  · intro hF
    obtain ⟨s, rest, hsplit, hs, hF⟩ := hF
    have hrest : rest ≠ [] := fun he => hnil (he ▸ hF)
    have hn : '/' ∉ s :=
      Text.notMem_of_mem_splitOn (t := t)
        (by rw [hsplit]; exact List.mem_cons_self ..)
    rw [← List.singleton_append] at hsplit
    obtain ⟨htext, hpieces⟩ :=
      Text.eq_append_of_splitOn_eq hsplit (List.cons_ne_nil s []) hrest
    rw [Text.join_singleton] at htext
    have hline : '\n' ∉ Text.join ['/'] rest := fun hr =>
      ht (by
        rw [htext]
        exact List.mem_append_right _ (List.mem_cons_of_mem _ hr))
    refine ⟨s, _, htext, ⟨hs, hn⟩, ['/'], _, rfl, ⟨'/', rfl, by simp⟩, ?_⟩
    exact (h _ hline).2 (by rw [hpieces]; exact hF)

/-- The segments of a glob, joined, spell the paths whose segments fit
them. -/
theorem spelled_join_iff (below : Bool) {gs : List Text} (hne : gs ≠ [])
    (hslash : ∀ g ∈ gs, '/' ∉ g) (hregular : ∀ g ∈ gs, Regular g) :
    Reads (Spelled false (tokens (Text.join ['/'] gs)) (Ends below))
      (SegmentsFit below gs) := by
  induction gs with
  | nil => exact absurd rfl hne
  | cons g gs ih =>
      have hg : '/' ∉ g := hslash g (List.mem_cons_self ..)
      by_cases hlast : gs = []
      · subst hlast
        rw [Text.join_singleton]
        by_cases hstars : g = stars
        · subst hstars
          exact reads_all below
        · have hfree := (hregular g (List.mem_cons_self ..)).resolve_left hstars
          intro t ht
          rw [spelled_segment_iff hg hfree]
          exact reads_last below hstars t ht
      · have ih := ih hlast (fun g hg => hslash g (List.mem_cons_of_mem _ hg))
          fun g hg => hregular g (List.mem_cons_of_mem _ hg)
        have hnil : ¬ SegmentsFit below gs [] := fun h => h.ne_nil hlast rfl
        rw [Text.join_cons ['/'] g hlast, List.append_assoc,
          List.singleton_append]
        intro t ht
        by_cases hstars : g = stars
        · subst hstars
          rw [segmentsFit_stars hlast]
          exact reads_skip ih hnil t ht
        · have hfree := (hregular g (List.mem_cons_self ..)).resolve_left hstars
          rw [tokens_append_slash hfree, spelled_append,
            spelled_segment_iff hg hfree, spelled_cons,
            segmentsFit_segment hstars]
          exact reads_segment g ih hnil t ht

-- ================================================================ whole globs

/-- The units of a shape are those of the segments of the plan, behind a
unit for whole segments if the glob may start anywhere. -/
theorem shape_body (glob : Text) :
    (shape glob).body = (if (plan glob).free then [Token.segments] else [])
      ++ tokens (Text.join ['/'] (plan glob).segments) := by
  unfold plan
  rw [Text.join_splitOn]
  rfl

theorem shape_coversBelow (glob : Text) :
    (shape glob).coversBelow = (plan glob).below := by
  have hlast : ∀ body : Text,
      (Text.splitOn '/' body).getLastD [] = Text.afterLast '/' body := by
    intro body
    rw [List.getLastD_eq_getLast?, Text.getLast?_splitOn]
    rfl
  unfold plan
  simp only [hlast]
  rfl

/-- The segments of a plan are segments of the glob. -/
theorem mem_splitOn_of_mem_plan {glob g : Text} (h : g ∈ (plan glob).segments) :
    g ∈ Text.splitOn '/' glob := by
  have htail : ∀ {t : Text},
      g ∈ Text.splitOn '/' (if t.head? == some '/' then t.tail else t) →
      g ∈ Text.splitOn '/' t := by
    intro t ht
    by_cases hlead : t.head? == some '/'
    · rw [if_pos hlead] at ht
      cases t with
      | nil => cases hlead
      | cons c t =>
          have hc : c = '/' := by simpa using hlead
          subst hc
          rw [show '/' :: t = [] ++ '/' :: t from rfl, Text.splitOn_append]
          exact List.mem_append_right _ ht
    · rwa [if_neg hlead] at ht
  have hinit : ∀ {t : Text}, t.getLast? = some '/' →
      g ∈ Text.splitOn '/' t.dropLast →
      g ∈ Text.splitOn '/' t := by
    intro t hlast ht
    obtain ⟨front, rfl⟩ := List.getLast?_eq_some_iff.1 hlast
    rw [List.dropLast_concat] at ht
    rw [Text.splitOn_append]
    exact List.mem_append_left _ ht
  have hnamed := htail h
  by_cases hdir : (1 < glob.length && glob.getLast? == some '/') = true
  · simp only [hdir, if_true] at hnamed
    simp only [Bool.and_eq_true, beq_iff_eq] at hdir
    exact hinit hdir.2 hnamed
  · simpa only [hdir, Bool.false_eq_true, if_false] using hnamed

/-- A normalized path holds the characters of the path, and slashes. -/
theorem mem_normalizePath {c : Char} {path : Text}
    (h : c ∈ normalizePath path) :
    c = '/' ∨ c ∈ path := by
  have hmem : c ∈ Text.replace '\\' '/' path :=
    (normalizePath_isSuffix_replace path).subset h
  obtain ⟨d, hd, hcd⟩ := List.mem_map.1 hmem
  by_cases hback : d = '\\'
  · rw [if_pos hback] at hcd
    exact Or.inl hcd.symm
  · rw [if_neg hback] at hcd
    exact Or.inr (hcd ▸ hd)

/-- A shape covers a path of one line exactly when the segments of the path
fit the plan of the glob. -/
theorem covers_shape_iff {glob path : Text}
    (hregular : ∀ segment ∈ Text.splitOn '/' glob, Regular segment)
    (hline : '\n' ∉ path) :
    (shape glob).covers false path = true
      ↔ (plan glob).Fits (Text.splitOn '/' path) := by
  have hsegments : (plan glob).segments ≠ [] := Text.splitOn_ne_nil '/' _
  have hreads := spelled_join_iff (plan glob).below hsegments
    (fun g hg => Text.notMem_of_mem_splitOn hg)
    fun g hg => hregular g (mem_splitOn_of_mem_plan hg)
  rw [covers_iff, shape_body, shape_coversBelow, spelled_append]
  unfold Plan.Fits
  by_cases hfree : (plan glob).free = true
  · simp only [hfree, if_true, true_or, true_and]
    exact reads_skip hreads (fun h => h.ne_nil hsegments rfl) _ hline
  · rw [if_neg hfree]
    refine (hreads _ hline).trans
      ⟨fun h => ⟨[], _, rfl, Or.inr rfl, h⟩, fun h => ?_⟩
    obtain ⟨skipped, rest, hrest, hskip, hfit⟩ := h
    rw [hrest, hskip.resolve_left hfree]
    exact hfit

/-- A glob without a short form that is not too heavy is matched by its
shape. -/
theorem isMatch_compile {glob : Text} (path : Text)
    (hlong : suffix? (normalizeGlob glob) = none)
    (hfits : (shape (normalizeGlob glob)).fits = true) :
    (compile glob).isMatch path
      = (shape (normalizeGlob glob)).covers false (normalizePath path) := by
  have htest : (compile glob).test = .shape (shape (normalizeGlob glob)) := by
    show testOf (normalizeGlob glob) false = _
    unfold testOf generalTest
    rw [hlong, if_pos hfits]
  unfold isMatch accepts
  rw [htest]
  rfl

/-- Without the short form a glob that is not too heavy is matched by its
shape. -/
theorem isMatch_compileGeneral {glob : Text} (path : Text)
    (hfits : (shape (normalizeGlob glob)).fits = true) :
    (compileGeneral glob).isMatch path
      = (shape (normalizeGlob glob)).covers false (normalizePath path) := by
  have htest :
      (compileGeneral glob).test = .shape (shape (normalizeGlob glob)) :=
    if_pos hfits
  unfold isMatch accepts
  rw [htest]
  rfl

/-- A glob without stray pairs of stars, that is not too heavy, matches a
path of one line exactly when the segments of the path fit its plan. -/
theorem isMatch_compileGeneral_iff (glob path : Text)
    (hregular :
      ∀ segment ∈ Text.splitOn '/' (normalizeGlob glob), Regular segment)
    (hfits : (shape (normalizeGlob glob)).fits = true) (hline : '\n' ∉ path) :
    (compileGeneral glob).isMatch path = true
      ↔ (plan (normalizeGlob glob)).Fits
        (Text.splitOn '/' (normalizePath path)) := by
  rw [isMatch_compileGeneral path hfits]
  refine covers_shape_iff hregular fun h => ?_
  rcases mem_normalizePath h with h | h
  · cases h
  · exact hline h

/-- A path three segments deep fits a glob of two plain ends with whole
segments between them. -/
theorem plan_fits_nested :
    (∀ segment ∈ Text.splitOn '/' (normalizeGlob "src/**/*.rs".toList),
      Regular segment) ∧
    (shape (normalizeGlob "src/**/*.rs".toList)).fits = true ∧
    '\n' ∉ "./src/a/b.rs".toList ∧
    (plan (normalizeGlob "src/**/*.rs".toList)).Fits
      (Text.splitOn '/' (normalizePath "./src/a/b.rs".toList)) :=
  ⟨by decide, by decide, by decide,
    (isMatch_compileGeneral_iff "src/**/*.rs".toList "./src/a/b.rs".toList
      (by decide) (by decide) (by decide)).1 (by decide)⟩

end Glob

end SourceDigest
