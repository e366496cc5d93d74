/-
What globs and selections make of a normal path.

A path and its normal form should be one to every glob. They are, unless
taking slashes off the path has uncovered a `./`: then the normal form has
a normal form of its own, and the two are matched as different paths
(`normalizing_settles_iff`). That globs do tell them apart is shown by a
glob drawn after the normal form (`outline`): slashes where it has slashes,
`?` for its other characters, and more characters of the last segment. It
matches that path and nothing shorter (`covers_outline_self`,
`length_le_of_covers_outline`).
-/
import SourceDigest.Selection
import SourceDigest.Proofs.Glob.Segments
import SourceDigest.Proofs.Text.Blanks

namespace SourceDigest

namespace Glob

variable {t u v : Text} {ts : List Token} {last : Text → Prop}

-- =================================================================== outlines

/-- A slash for a slash, and the sign for one character for any other. -/
def mark (c : Char) : Char := if c = '/' then '/' else '?'

/-- The unit that a mark is read as. -/
def markToken (c : Char) : Token := if c = '/' then .char '/' else .single

/-- The glob that has a slash for each slash of a text and a sign for each
other character, and lets the last segment go on. -/
def outline (t : Text) : Text := '/' :: (t.map mark ++ ['*'])

/-- The outline of a text has a token for each character, and one for what
follows. -/
theorem tokens_outline (t : Text) :
    tokens (t.map mark ++ ['*']) = t.map markToken ++ [.run] := by
  induction t with
  | nil => rfl
  | cons c t ih =>
      rw [List.map_cons, List.cons_append, List.map_cons, List.cons_append, ← ih]
      unfold mark markToken
      by_cases hc : c = '/'
      · rw [if_pos hc, if_pos hc]
        exact tokens_char rfl _
      · rw [if_neg hc, if_neg hc]
        rfl

theorem getLast?_outline (t : Text) : (outline t).getLast? = some '*' := by
  unfold outline
  rw [← List.cons_append, List.getLast?_concat]

/-- An outline is normal. -/
theorem normalizeGlob_outline (t : Text) :
    normalizeGlob (outline t) = outline t := by
  have htrim : Text.trim (outline t) = outline t :=
    Text.trim_eq_self (a := '/') rfl (getLast?_outline t) (by decide) (by decide)
  unfold normalizeGlob
  rw [htrim]
  refine replace_of_backslash_notMem fun h => ?_
  simp only [outline, List.mem_cons, List.mem_append, List.mem_map,
    List.not_mem_nil, or_false] at h
  rcases h with h | ⟨c, -, hc⟩ | h
  · cases h
  · unfold mark at hc
    split at hc <;> cases hc
  · cases h

/-- The shape of a glob that is tied to the root and marks no directory. -/
theorem shape_slash_cons {body : Text}
    (h : ('/' :: body).getLast? ≠ some '/') :
    shape ('/' :: body)
      = ⟨tokens body, !(Text.afterLast '/' body).any isWildcard⟩ := by
  unfold shape
  simp [h]

theorem shape_outline (t : Text) :
    shape (outline t) = ⟨t.map markToken ++ [.run], false⟩ := by
  have hstar : '*' ∈ Text.afterLast '/' (t.map mark ++ ['*']) := by
    simp [Text.afterLast]
  have hwild : (Text.afterLast '/' (t.map mark ++ ['*'])).any isWildcard
      = true :=
    List.any_eq_true.2 ⟨'*', hstar, rfl⟩
  have hlast : (outline t).getLast? ≠ some '/' := by
    rw [getLast?_outline]
    decide
  rw [outline, shape_slash_cons hlast, hwild, tokens_outline]
  rfl

/-- An outline weighs no more than its text with a sign in each place. -/
theorem fits_outline
    (h : Token.single.weight * t.length + Token.run.weight ≤ weightLimit) :
    (shape (outline t)).fits = true := by
  have hweight : ∀ t : Text,
      (t.map markToken ++ [Token.run]).foldr (fun u n => u.weight + n) 0
        ≤ Token.single.weight * t.length + Token.run.weight := by
    intro t
    induction t with
    | nil => exact le_refl _
    | cons c t ih =>
        have hc : (markToken c).weight ≤ Token.single.weight := by
          unfold markToken
          split <;> decide
        rw [List.map_cons, List.cons_append, List.foldr_cons, List.length_cons,
          Nat.mul_succ]
        omega
  unfold Shape.fits
  rw [shape_outline, decide_eq_true_eq]
  exact (hweight t).trans h

/-- The token that a character is marked by spells it. -/
theorem spells_markToken (c : Char) : (markToken c).Spells false [c] := by
  unfold markToken
  by_cases hc : c = '/'
  · rw [if_pos hc]
    exact ⟨c, rfl, by simp [hc]⟩
  · rw [if_neg hc]
    exact ⟨c, rfl, by simp [isInSegment, hc]⟩

/-- And it spells one character, whichever. -/
theorem length_of_spells_markToken {c : Char}
    (h : (markToken c).Spells false t) : t.length = 1 := by
  unfold markToken at h
  split at h
  · obtain ⟨d, rfl, -⟩ := h
    rfl
  · obtain ⟨d, rfl, -⟩ := h
    rfl

/-- The units of a text spell the text in front of what comes after. -/
theorem spelled_markToken (h : Spelled false ts last v) :
    Spelled false (t.map markToken ++ ts) last (t ++ v) := by
  induction t with
  | nil => exact h
  | cons c t ih => exact ⟨[c], t ++ v, rfl, spells_markToken c, ih⟩

/-- They spell nothing that is shorter. -/
theorem length_le_of_spelled_markToken
    (h : Spelled false (t.map markToken ++ ts) last u) :
    t.length ≤ u.length := by
  induction t generalizing u with
  | nil => exact Nat.zero_le _
  | cons c t ih =>
      obtain ⟨a, b, rfl, ha, hb⟩ := h
      have hone := length_of_spells_markToken ha
      have hrest := ih hb
      rw [List.length_cons, List.length_append]
      omega

/-- A text is covered by its outline. -/
theorem covers_outline_self (t : Text) :
    (shape (outline t)).covers false t = true := by
  rw [covers_iff, shape_outline]
  have hrun : Spelled false [.run] (Ends false) [] :=
    ⟨[], [], rfl, fun c hc => absurd hc List.not_mem_nil, Or.inl rfl⟩
  have h := spelled_markToken (t := t) hrun
  rwa [List.append_nil] at h

/-- A text covered by an outline has at least the characters marked there. -/
theorem length_le_of_covers_outline
    (h : (shape (outline t)).covers false u = true) :
    t.length ≤ u.length := by
  rw [covers_iff, shape_outline] at h
  exact length_le_of_spelled_markToken h

/-- An outline has no ending to go by: it matches by its shape. -/
theorem isMatch_outline (path : Text)
    (h : Token.single.weight * t.length + Token.run.weight ≤ weightLimit) :
    (compile (outline t)).isMatch path
      = (shape (outline t)).covers false (normalizePath path) := by
  have hnormal := normalizeGlob_outline t
  rw [isMatch_compile path (by rw [hnormal]; rfl)
    (by rw [hnormal]; exact fits_outline h), hnormal]

-- =================================================================== settling

/-- To a path that is through with being made normal, its normal form is the
same to every glob. -/
theorem isMatch_normalizePath {path : Text}
    (h : normalizePath (normalizePath path) = normalizePath path) (g : Glob) :
    g.isMatch (normalizePath path) = g.isMatch path := by
  unfold isMatch
  rw [h]

/-- What every glob treats alike every selection does. -/
theorem takes_congr {path path' : Text}
    (h : ∀ g : Glob, g.isMatch path = g.isMatch path') (s : Selection) :
    s.takes path = s.takes path' := by
  unfold Selection.takes Selection.isIgnored Selection.isIncluded
  simp only [h]

/-- A selection that ignores one glob takes what the glob does not match. -/
theorem takes_ofGlobs_ignore {glob : Text}
    (hglob : Selection.isGiven glob = true) (path : Text) :
    (Selection.ofGlobs [glob] []).takes path
      = !(compile glob).isMatch path := by
  have hignore : Selection.ofGlobs [glob] [] = ⟨[compile glob], []⟩ :=
    if_pos hglob
  rw [hignore]
  simp [Selection.takes, Selection.isIgnored, Selection.isIncluded]

theorem isGiven_outline (t : Text) : Selection.isGiven (outline t) = true := by
  have htrim : Text.trim (outline t) ≠ [] :=
    Text.trim_ne_nil (c := '/') (List.mem_cons_self ..) (by decide)
  unfold Selection.isGiven
  simpa using htrim

/-- The outline of the normal form matches a path that uncovers a `./`, and
not the normal form. -/
theorem isMatch_outline_of_uncovers {path : Text} (h : Uncovers path)
    (hweight :
      Token.single.weight * path.length + Token.run.weight ≤ weightLimit) :
    (compile (outline (normalizePath path))).isMatch path = true
      ∧ (compile (outline (normalizePath path))).isMatch (normalizePath path)
        = false := by
  have hshort : Token.single.weight * (normalizePath path).length
      + Token.run.weight ≤ weightLimit :=
    (Nat.add_le_add_right
      (Nat.mul_le_mul_left _ (length_normalizePath_le path)) _).trans hweight
  rw [isMatch_outline _ hshort, isMatch_outline _ hshort]
  refine ⟨covers_outline_self _, Bool.eq_false_iff.2 fun hcovers => ?_⟩
  -- made normal once more, the normal form is shorter than its outline asks
  have hlong := length_le_of_covers_outline hcovers
  obtain ⟨rest, hrest⟩ := here_isPrefix_normalizePath_iff.2 h
  have hrest' := length_normalizePath_here rest
  rw [hrest] at hrest'
  have hhere : (normalizePath path).length = rest.length + 2 := by
    rw [← hrest, List.length_append]
    exact Nat.add_comm ..
  omega

/-- A normal path holds no backslash and begins with no slash. It begins
with `./`, and has a normal form of its own, exactly if the path uncovers
that. Any other path is the same as its normal form to every glob and every
selection; one that uncovers a `./` is not, as long as a glob with a sign
for each of its characters is not too heavy. -/
theorem normalizing_settles_iff (path : Text) :
    '\\' ∉ normalizePath path
      ∧ (normalizePath path).head? ≠ some '/'
      ∧ (here <+: normalizePath path ↔ Uncovers path)
      ∧ (normalizePath (normalizePath path) = normalizePath path
        ↔ ¬ Uncovers path)
      ∧ (¬ Uncovers path →
        (∀ g : Glob, g.isMatch (normalizePath path) = g.isMatch path)
          ∧ ∀ s : Selection, s.takes (normalizePath path) = s.takes path)
      ∧ (Uncovers path →
        Token.single.weight * path.length + Token.run.weight ≤ weightLimit →
        ∃ glob : Text,
          (compile glob).isMatch (normalizePath path)
              ≠ (compile glob).isMatch path
            ∧ (Selection.ofGlobs [glob] []).takes (normalizePath path)
              ≠ (Selection.ofGlobs [glob] []).takes path) := by
  refine ⟨backslash_notMem_normalizePath path, head?_normalizePath_ne path,
    here_isPrefix_normalizePath_iff, normalizePath_normalizePath_iff,
    fun h => ?_, fun h hweight => ?_⟩
  · have hsame := isMatch_normalizePath (normalizePath_normalizePath_iff.2 h)
    exact ⟨hsame, takes_congr hsame⟩
  · obtain ⟨hpath, hnormal⟩ := isMatch_outline_of_uncovers h hweight
    refine ⟨outline (normalizePath path), ?_, ?_⟩
    · rw [hpath, hnormal]
      decide
    · rw [takes_ofGlobs_ignore (isGiven_outline _),
        takes_ofGlobs_ignore (isGiven_outline _), hpath, hnormal]
      decide

/-- Two leads and the slashes behind them are taken off at once. -/
theorem normalizing_settles_behind_slashes :
    ¬ Uncovers "././//src\\a.rs".toList
      ∧ normalizePath "././//src\\a.rs".toList = "src/a.rs".toList
      ∧ (Selection.ofGlobs ["/src"] []).takes "src/a.rs".toList
        = (Selection.ofGlobs ["/src"] []).takes "././//src\\a.rs".toList := by
  obtain ⟨-, -, -, hsettled, hsame, -⟩ :=
    normalizing_settles_iff "././//src\\a.rs".toList
  have hclear : ¬ Uncovers "././//src\\a.rs".toList :=
    hsettled.1 (by decide)
  exact ⟨hclear, by decide, (hsame hclear).2 _⟩

/-- A lead that a slash covers comes to light, and goes when the normal form
is made normal. A glob that is tied to the root tells the two apart. -/
theorem normalizePath_of_covered_lead :
    normalizePath "/./a".toList = "./a".toList
      ∧ normalizePath "./a".toList = "a".toList
      ∧ (compile "/a".toList).isMatch "/./a".toList = false
      ∧ (compile "/a".toList).isMatch "./a".toList = true
      ∧ (Selection.ofGlobs ["/a"] []).takes "/./a".toList = true
      ∧ (Selection.ofGlobs ["/a"] []).takes "./a".toList = false := by
  decide

end Glob

end SourceDigest
