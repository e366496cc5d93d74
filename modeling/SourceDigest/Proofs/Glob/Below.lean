/-
Globs that reach below what they match.

Everything below a directory that a glob names, marks or gives over to two
stars is matched with the directory: a glob that ends in a slash or in two
stars, or has no wildcard in its last segment (`ReachesBelow`), covers with
a path every path below it (`covers_below`). As a glob that is not too heavy
it matches them (`IsDeep.isMatch_below`), as long as something of the path
stays in front when they are made normal (`keepsFront_iff`).

# Where the rest of a path goes

What stands below a path is taken by the end of a glob, whichever way the
units before it split the path. So the argument is about predicates that
hold of more text as soon as they hold of some (`Grows`). Units hand growth
on from what stands behind them (`grows_spelled`), so that only two ends
are left to look at: one that covers what lies below (`grows_ends`), and
two stars with at most one more behind them, which take the rest of the
line (`grows_anything`).
-/
import SourceDigest.Proofs.Glob.Endings
import SourceDigest.Proofs.Text.Blanks

namespace SourceDigest

namespace Glob

variable {ignoreCase below : Bool} {glob path more t : Text}

/-- A glob ends in a slash, or in two stars, or with a segment that holds no
wildcard. -/
def ReachesBelow (glob : Text) : Prop :=
  glob.getLast? = some '/' ∨ stars <:+ glob
    ∨ ∀ c ∈ Text.afterLast '/' glob, isWildcard c = false

instance : DecidablePred ReachesBelow := fun glob =>
  -- over the characters of the segment, not over all characters
  haveI := List.decidableBAll (isWildcard · = false) (Text.afterLast '/' glob)
  inferInstanceAs (Decidable (glob.getLast? = some '/' ∨ stars <:+ glob
    ∨ ∀ c ∈ Text.afterLast '/' glob, isWildcard c = false))

-- ===================================================================== growth

/-- A predicate that holds of a text of one line holds of the text with more
behind it. -/
def Grows (more : Text) (P : Text → Prop) : Prop :=
  ∀ t, '\n' ∉ t → P t → P (t ++ more)

theorem Grows.then {P Q : Text → Prop} (h : Grows more Q) :
    Grows more (Then P Q) := by
  intro t ht hpart
  obtain ⟨a, b, rfl, ha, hb⟩ := hpart
  have hline : '\n' ∉ b := fun hmem => ht (List.mem_append_right a hmem)
  exact ⟨a, b ++ more, List.append_assoc .., ha, h b hline hb⟩

/-- Units hand growth on from what stands behind them. -/
theorem grows_spelled {last : Text → Prop} (ts : List Token)
    (h : Grows more last) : Grows more (Spelled ignoreCase ts last) := by
  induction ts with
  | nil => exact h
  | cons t ts ih => exact ih.then

/-- An end that covers what lies below takes more of it. -/
theorem grows_ends (hmore : '\n' ∉ more) :
    Grows ('/' :: more) (Ends true) := by
  have hslash : OneOf isSlash ['/'] := ⟨'/', rfl, rfl⟩
  intro t ht hend
  rcases hend with rfl | ⟨-, a, b, rfl, ha, hb⟩
  · exact Or.inr ⟨rfl, ['/'], more, rfl, hslash, manyOf_isInLine hmore⟩
  · refine Or.inr ⟨rfl, a, b ++ '/' :: more, List.append_assoc .., ha, ?_⟩
    refine manyOf_isInLine fun hmem => ?_
    simp only [List.mem_append, List.mem_cons] at hmem ht
    rcases hmem with hmem | hmem | hmem
    · exact ht (Or.inr hmem)
    · cases hmem
    · exact hmore hmem

/-- Two stars, with at most one more behind them, take the rest of a line. -/
theorem grows_anything {back : List Token} (hmore : '\n' ∉ more)
    (hback : back = [] ∨ back = [.run]) :
    Grows more (Spelled ignoreCase (.anything :: back) (Ends below)) := by
  have hnil : Spelled ignoreCase back (Ends below) [] := by
    have hend : Ends below [] := Or.inl rfl
    rcases hback with rfl | rfl
    · exact hend
    · exact ⟨[], [], rfl, fun c hc => absurd hc List.not_mem_nil, hend⟩
  intro t ht _
  refine ⟨t ++ more, [], (List.append_nil _).symm, ?_, hnil⟩
  refine manyOf_isInLine fun hmem => ?_
  exact (List.mem_append.1 hmem).elim ht hmore

-- ============================================================ ends of a glob

/-- Units that end in anything, be it with one run behind. -/
def EndsInAnything (ts : List Token) : Prop :=
  ∃ front back, ts = front ++ .anything :: back ∧ (back = [] ∨ back = [.run])

theorem EndsInAnything.cons {ts : List Token} (u : Token)
    (h : EndsInAnything ts) : EndsInAnything (u :: ts) := by
  obtain ⟨front, back, rfl, hback⟩ := h
  exact ⟨u :: front, back, rfl, hback⟩

/-- Two stars at the end of a glob are read as anything, or with a star in
front of them as anything and a run. -/
theorem endsInAnything_tokens (h : stars <:+ t) : EndsInAnything (tokens t) := by
  -- the stars stand behind any first character, unless they are all there is
  have hskip : ∀ {c : Char} {s : Text}, c ≠ '*' ∨ s ≠ ['*'] →
      stars <:+ c :: s → stars <:+ s := by
    intro c s hne hs
    refine (List.suffix_cons_iff.1 hs).resolve_left fun he => ?_
    obtain ⟨hc, hs⟩ := List.cons.inj he
    exact hne.elim (fun hne => hne hc.symm) fun hne => hne hs.symm
  induction t using units_induction with
  | nil => exact absurd (List.suffix_nil.1 h) (by decide)
  | segments rest ih =>
      rw [tokens]
      have hslash : stars <:+ '/' :: rest :=
        hskip (Or.inr (by simp)) (hskip (Or.inr (by simp)) h)
      exact (ih (hskip (Or.inl (by decide)) hslash)).cons _
  | anything rest hhead ih =>
      rw [tokens_anything hhead]
      by_cases hnil : rest = []
      · subst hnil
        exact ⟨[], [], rfl, Or.inl rfl⟩
      · by_cases hstar : rest = ['*']
        · subst hstar
          exact ⟨[], [.run], rfl, Or.inr rfl⟩
        · have hrest : stars <:+ '*' :: rest :=
            hskip (Or.inr (by simpa using hnil)) h
          exact (ih (hskip (Or.inr hstar) hrest)).cons _
  | run rest hhead ih =>
      have hrest : rest ≠ ['*'] := by
        rintro rfl
        exact hhead rfl
      rw [tokens_run hhead]
      exact (ih (hskip (Or.inr hrest) h)).cons _
  | single rest ih =>
      rw [tokens]
      exact (ih (hskip (Or.inl (by decide)) h)).cons _
  | char c rest hc ih =>
      have hstar : c ≠ '*' := by
        rintro rfl
        cases hc
      rw [tokens_char hc]
      exact (ih (hskip (Or.inl hstar) h)).cons _

-- ====================================================================== shapes

/-- A glob without the slash that ties it to the root. -/
def untied (glob : Text) : Text :=
  if glob.head? == some '/' then glob.tail else glob

/-- Untying takes a slash off the front or nothing. -/
theorem exists_eq_append_untied (glob : Text) :
    ∃ lead, glob = lead ++ untied glob ∧ (lead = [] ∨ lead = ['/']) := by
  unfold untied
  by_cases h : glob.head? = some '/'
  · obtain ⟨rest, rfl⟩ := List.head?_eq_some_iff.1 h
    exact ⟨['/'], rfl, Or.inr rfl⟩
  · rw [if_neg (by simpa using h)]
    exact ⟨[], rfl, Or.inl rfl⟩

/-- It does not touch what stands behind the last slash. -/
theorem afterLast_untied (glob : Text) :
    Text.afterLast '/' (untied glob) = Text.afterLast '/' glob := by
  obtain ⟨lead, hglob, rfl | rfl⟩ := exists_eq_append_untied glob
  · rw [← List.nil_append (untied glob), ← hglob]
  · conv_rhs => rw [hglob]
    exact (Text.afterLast_append_cons '/' [] (untied glob)).symm

/-- Two stars at the end of a glob do not hang on the slash in front. -/
theorem stars_isSuffix_untied (h : stars <:+ glob) :
    stars <:+ untied glob := by
  obtain ⟨lead, hglob, rfl | rfl⟩ := exists_eq_append_untied glob
  · rwa [← List.nil_append (untied glob), ← hglob]
  · rw [hglob] at h
    rcases List.suffix_cons_iff.1 h with he | h
    · cases he
    · exact h

/-- The shape of a glob that marks no directory. -/
theorem shape_of_not_directory
    (h : ¬ (1 < glob.length ∧ glob.getLast? = some '/')) :
    (∃ front, (shape glob).body = front ++ tokens (untied glob))
      ∧ (shape glob).coversBelow
        = !(Text.afterLast '/' (untied glob)).any isWildcard := by
  have hdir : (1 < glob.length && glob.getLast? == some '/') = false := by
    simpa using h
  unfold shape
  simp only [hdir, Bool.false_eq_true, if_false, Bool.false_or]
  exact ⟨⟨_, rfl⟩, rfl⟩

/-- The shape of a glob that reaches below covers what lies below, or ends in
anything. -/
theorem shape_of_reachesBelow (h : ReachesBelow glob) :
    (shape glob).coversBelow = true
      ∨ EndsInAnything (shape glob).body := by
  by_cases hdir : 1 < glob.length ∧ glob.getLast? = some '/'
  · left
    unfold shape
    simp [hdir]
  · obtain ⟨⟨front, hbody⟩, hcovers⟩ := shape_of_not_directory hdir
    rw [afterLast_untied] at hcovers
    rcases h with hslash | hstars | hplain
    · -- the glob is a slash and nothing else
      left
      have hone : glob = ['/'] := by
        obtain ⟨lead, rfl⟩ := List.getLast?_eq_some_iff.1 hslash
        have hlen : ¬ 1 < (lead ++ ['/']).length := fun hl => hdir ⟨hl, hslash⟩
        cases lead with
        | nil => rfl
        | cons c lead => simp at hlen
      subst hone
      rfl
    · right
      rw [hbody]
      obtain ⟨ts, back, htokens, hback⟩ :=
        endsInAnything_tokens (stars_isSuffix_untied hstars)
      exact ⟨front ++ ts, back, by rw [htokens, List.append_assoc], hback⟩
    · left
      rw [hcovers, Bool.not_eq_true', List.any_eq_false]
      exact fun c hc => Bool.eq_false_iff.1 (hplain c hc)

/-- What a shape that reaches below spells grows below. -/
theorem grows_shape (h : ReachesBelow glob) (hmore : '\n' ∉ more) :
    Grows ('/' :: more) (Spelled ignoreCase (shape glob).body
      (Ends (shape glob).coversBelow)) := by
  rcases shape_of_reachesBelow h with hcovers | ⟨front, back, hbody, hback⟩
  · rw [hcovers]
    exact grows_spelled _ (grows_ends hmore)
  · have hline : '\n' ∉ '/' :: more := by
      simpa using hmore
    rw [hbody, spelled_append]
    exact grows_spelled _ (grows_anything hline hback)

/-- The shape of a glob that reaches below covers with a path what lies below
it. -/
theorem covers_below (h : ReachesBelow glob) (hpath : '\n' ∉ path)
    (hmore : '\n' ∉ more) (hcovers : (shape glob).covers ignoreCase path = true) :
    (shape glob).covers ignoreCase (path ++ '/' :: more) = true := by
  rw [covers_iff] at hcovers ⊢
  exact grows_shape h hmore _ hpath hcovers

-- ===================================================================== matching

/-- A glob that reaches below is no comparison of endings. -/
theorem suffix?_of_reachesBelow (h : ReachesBelow glob) :
    suffix? glob = none := by
  cases hsuffix : suffix? glob with
  | none => rfl
  | some tail =>
      exfalso
      obtain ⟨rfl, hplain, hslash, hne⟩ := suffix?_eq_some hsuffix
      have hbody : '/' ∉ '*' :: tail := by simp [hslash]
      have hlast : ∀ c, ('*' :: tail).getLast? = some c → c ∈ tail := by
        intro c hc
        rw [List.getLast?_cons_of_ne_nil hne] at hc
        exact List.mem_of_getLast? hc
      rcases h with h | h | h
      · exact hslash (hlast '/' h)
      · obtain ⟨front, hfront⟩ := h
        have hstar : '*' ∈ tail := hlast '*' (by
          rw [← hfront]
          simp [stars])
        exact absurd (hplain '*' hstar) (by decide)
      · rw [Text.afterLast_of_notMem hbody] at h
        exact absurd (h '*' (List.mem_cons_self ..)) (by decide)

/-- What a glob makes of its ends is seen before it is trimmed and written
with slashes. -/
theorem ReachesBelow.normalizeGlob (h : ReachesBelow glob) :
    ReachesBelow (normalizeGlob glob) := by
  have hplain : ∀ {s : Text}, (∀ c ∈ s, isWildcard c = false) →
      ∀ c ∈ Text.replace '\\' '/' s, isWildcard c = false := by
    intro s hs c hc
    obtain ⟨d, hd, rfl⟩ := List.mem_map.1 hc
    split
    · rfl
    · exact hs d hd
  unfold Glob.normalizeGlob
  rcases h with h | h | h
  · left
    obtain ⟨front, rfl⟩ := List.getLast?_eq_some_iff.1 h
    rw [Text.trim_append_cons (by decide)]
    simp [Text.replace, Text.trimEndOf]
  · right; left
    obtain ⟨front, rfl⟩ := h
    have hback : Text.trimEndOf Text.isBlank ['*'] = ['*'] := by decide
    rw [stars, Text.trim_append_cons (by decide), hback]
    exact ⟨Text.replace '\\' '/' (Text.trimStartOf Text.isBlank front),
      by simp [Text.replace]⟩
  · right; right
    intro c hc
    by_cases hslash : '/' ∈ glob
    · obtain ⟨front, name, rfl, hname⟩ := exists_last_slash hslash
      rw [Text.afterLast_append_of_notMem hname] at h
      rw [Text.trim_append_cons (by decide), replace_append_slash,
        Text.afterLast_append_cons] at hc
      refine hplain (fun d hd => h d ?_) c (Text.mem_of_mem_afterLast hc)
      exact (Text.trimEndOf_isPrefix _ _).subset hd
    · rw [Text.afterLast_of_notMem hslash] at h
      refine hplain (fun d hd => h d ?_) c (Text.mem_of_mem_afterLast hc)
      exact (List.dropWhile_suffix _).subset
        ((Text.trimEndOf_isPrefix _ _).subset hd)

/-- A glob that reaches below what it matches, and is not too heavy. -/
structure IsDeep (glob : Text) : Prop where
  reaches : ReachesBelow glob ∨ ReachesBelow (normalizeGlob glob)
  fits : (shape (normalizeGlob glob)).fits = true

/-- With a path that keeps its front a deep glob matches every path below
it. -/
theorem IsDeep.isMatch_below (h : IsDeep glob) (hfront : KeepsFront path)
    (hpath : '\n' ∉ path) (hmore : '\n' ∉ more)
    (hmatch : (compile glob).isMatch path = true) :
    (compile glob).isMatch (path ++ '/' :: more) = true := by
  have hreaches : ReachesBelow (normalizeGlob glob) :=
    h.reaches.elim ReachesBelow.normalizeGlob id
  have hfeed : ∀ {t : Text}, '\n' ∉ t → '\n' ∉ Text.replace '\\' '/' t := by
    intro t ht hmem
    obtain ⟨c, hc, hfeed⟩ := List.mem_map.1 hmem
    split at hfeed
    · cases hfeed
    · exact ht (hfeed ▸ hc)
  have hline : '\n' ∉ normalizePath path := fun hmem =>
    hfeed hpath ((normalizePath_isSuffix_replace path).subset hmem)
  have hlong := suffix?_of_reachesBelow hreaches
  rw [isMatch_compile _ hlong h.fits] at hmatch ⊢
  rw [hfront.normalizePath_append]
  exact covers_below hreaches hline (hfeed hmore) hmatch

/-- Paths that keep their front are those below which all that is on a line is
matched by every deep glob that matches the path. -/
theorem keepsFront_iff (hpath : '\n' ∉ path) :
    KeepsFront path ↔ ∀ glob more : Text, IsDeep glob → '\n' ∉ more →
      (compile glob).isMatch path = true →
        (compile glob).isMatch (path ++ '/' :: more) = true := by
  constructor
  · intro hfront glob more hdeep hmore hmatch
    exact hdeep.isMatch_below hfront hpath hmore hmatch
  · intro hbelow
    by_contra hfront
    obtain ⟨hnormal, hlost⟩ := normalizePath_append_of_not_keepsFront hfront
    -- `/` matches what is lost as a whole, `.` what is lost but for a dot
    have hfails : ∀ glob : Text, IsDeep glob →
        accepts (compile glob) (normalizePath path) = true →
        accepts (compile glob) ['f'] = true := fun glob hdeep hmatch => by
      have hmore := hbelow glob ['f'] hdeep (by decide) hmatch
      unfold isMatch at hmore
      rwa [hlost] at hmore
    rcases hnormal with hnil | hdot
    · have h := hfails ['/'] ⟨Or.inl (by decide), by decide⟩ (by rw [hnil]; decide)
      exact absurd h (by decide)
    · have h := hfails ['.'] ⟨Or.inl (by decide), by decide⟩ (by rw [hdot]; decide)
      exact absurd h (by decide)

end Glob

end SourceDigest
