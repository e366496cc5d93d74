/-
Globs up to the case of ASCII letters.

The signs of a glob are no letters, and neither is what ends a segment or a
line. So a glob in lower case says what the glob says, with small letters
(`shape_lowerAscii`, `suffix?_lowerAscii`), and what is normal stays so. A
glob that disregards case cannot tell a glob and a path from the two in
lower case (`isMatch_ignoringCase_lowerAscii`), whichever test it goes by.
And where folding leaves all characters as they are, as it does with ASCII
texts in lower case, disregarding case makes no difference
(`covers_of_folded`). Taken together, an ASCII glob that disregards case
matches as it does with all in lower case
(`isMatch_ignoringCase_of_ascii`).
-/
import SourceDigest.Proofs.Glob.Endings
import SourceDigest.Proofs.Glob.NormalPaths
import SourceDigest.Proofs.Text.LetterCase

namespace SourceDigest

namespace Glob

open Text (lowerAscii HasNoCase)

variable {glob path t : Text}

-- ====================================================================== signs

/-- The signs of a glob are no letters. -/
theorem isWildcard_toLower (c : Char) : isWildcard c.toLower = isWildcard c :=
  Text.apply_toLower isWildcard (by decide) c

theorem isInLine_toLower (c : Char) : isInLine c.toLower = isInLine c :=
  Text.apply_toLower isInLine (by decide) c

/-- What ends a segment is no letter. -/
theorem isInSegment_toLower (c : Char) : isInSegment c.toLower = isInSegment c :=
  Text.apply_toLower isInSegment (by decide) c

theorem isSlash_toLower (c : Char) : isSlash c.toLower = isSlash c :=
  Text.apply_toLower isSlash (by decide) c

/-- Disregarding case cannot tell two characters from the two in lower case. -/
theorem sameLetter_toLower (c d : Char) :
    Text.sameLetter c.toLower d.toLower = Text.sameLetter c d := by
  unfold Text.sameLetter
  rw [Text.foldCase_toLower, Text.foldCase_toLower]

-- =============================================================== normal forms

/-- The normal form of a glob in lower case is the normal form in lower
case. -/
theorem normalizeGlob_lowerAscii (glob : Text) :
    normalizeGlob (lowerAscii glob) = lowerAscii (normalizeGlob glob) := by
  unfold normalizeGlob
  rw [Text.trim_lowerAscii, Text.replace_lowerAscii (by decide) (by decide)]

/-- A dot and a slash have no case. -/
theorem here_isPrefix_lowerAscii_iff : here <+: lowerAscii t ↔ here <+: t := by
  have hdot : HasNoCase '.' := by decide
  have hslash : HasNoCase '/' := by decide
  rcases t with _ | ⟨c, _ | ⟨d, t⟩⟩
  · exact Iff.rfl
  · simp [here, lowerAscii]
  · simp only [here, lowerAscii, List.map_cons, List.cons_prefix_cons,
      List.nil_prefix, and_true, Text.eq_toLower_iff hdot,
      Text.eq_toLower_iff hslash]

/-- So they are taken off the front of both texts. -/
theorem dropHere_lowerAscii (t : Text) :
    dropHere (lowerAscii t) = lowerAscii (dropHere t) := by
  induction t using here_induction with
  | more rest ih =>
      rw [dropHere_here_append, ← ih]
      rfl
  | done t hlead =>
      rw [dropHere_of_not_isPrefix hlead,
        dropHere_of_not_isPrefix fun h => hlead (here_isPrefix_lowerAscii_iff.1 h)]

/-- The normal form of a path in lower case is the normal form in lower
case. -/
theorem normalizePath_lowerAscii (path : Text) :
    normalizePath (lowerAscii path) = lowerAscii (normalizePath path) := by
  unfold normalizePath
  rw [Text.replace_lowerAscii (by decide) (by decide), dropHere_lowerAscii,
    Text.dropWhile_lowerAscii (Text.toLower_beq (by decide))]

-- ====================================================================== shapes

/-- A unit with a small letter for a capital. -/
def Token.lower : Token → Token
  | char c => char c.toLower
  | t => t

/-- A glob in lower case is made of the same tokens, with small letters. -/
theorem tokens_lowerAscii (t : Text) :
    tokens (lowerAscii t) = (tokens t).map Token.lower := by
  have hhead : ∀ {d : Char} {rest : Text}, HasNoCase d → rest.head? ≠ some d →
      (lowerAscii rest).head? ≠ some d := fun hd hrest h =>
    hrest ((Text.head?_lowerAscii_eq_iff hd).1 h)
  induction t using units_induction with
  | nil => rfl
  | segments rest ih =>
      show tokens ('*' :: '*' :: '/' :: lowerAscii rest) = _
      rw [tokens, ih, tokens]
      rfl
  | anything rest hrest ih =>
      show tokens ('*' :: '*' :: lowerAscii rest) = _
      rw [tokens_anything (hhead (by decide) hrest), ih, tokens_anything hrest]
      rfl
  | run rest hrest ih =>
      show tokens ('*' :: lowerAscii rest) = _
      rw [tokens_run (hhead (by decide) hrest), ih, tokens_run hrest]
      rfl
  | single rest ih =>
      show tokens ('?' :: lowerAscii rest) = _
      rw [tokens, ih, tokens]
      rfl
  | char c rest hc ih =>
      have hc' : isWildcard c.toLower = false := by rw [isWildcard_toLower, hc]
      show tokens (c.toLower :: lowerAscii rest) = _
      rw [tokens_char hc', ih, tokens_char hc]
      rfl

/-- A shape with small letters for capitals. -/
def Shape.lower (s : Shape) : Shape := { s with body := s.body.map Token.lower }

/-- And it has the same shape, with small letters. -/
theorem shape_lowerAscii (glob : Text) :
    shape (lowerAscii glob) = (shape glob).lower := by
  have hslash : HasNoCase '/' := by decide
  have hlength : (lowerAscii glob).length = glob.length := List.length_map _
  have hlast : ∀ t : Text, ((lowerAscii t).getLast? == some '/')
      = (t.getLast? == some '/') := fun t => by
    rw [Bool.eq_iff_iff, beq_iff_eq, beq_iff_eq, Text.getLast?_lowerAscii_eq_iff hslash]
  have hhead : ∀ t : Text, ((lowerAscii t).head? == some '/')
      = (t.head? == some '/') := fun t => by
    rw [Bool.eq_iff_iff, beq_iff_eq, beq_iff_eq, Text.head?_lowerAscii_eq_iff hslash]
  have hdropLast : (lowerAscii glob).dropLast = lowerAscii glob.dropLast :=
    List.map_dropLast.symm
  have htail : ∀ t : Text, (lowerAscii t).tail = lowerAscii t.tail := fun t =>
    List.map_tail.symm
  have hchoice : ∀ (b : Bool) (s t : Text),
      (if b then lowerAscii s else lowerAscii t) = lowerAscii (if b then s else t) :=
    fun b s t => (apply_ite lowerAscii _ s t).symm
  have hfree : ∀ b : Bool, (if b then [Token.segments] else []).map Token.lower
      = if b then [Token.segments] else [] := by decide
  unfold shape Shape.lower
  simp only [hlength, hlast, hdropLast, hchoice, hhead, htail, tokens_lowerAscii,
    Text.contains_lowerAscii hslash, Text.afterLast_lowerAscii hslash,
    Text.any_lowerAscii isWildcard_toLower, List.map_append, hfree]

theorem weight_lower (t : Token) : t.lower.weight = t.weight := by
  cases t <;> rfl

/-- Case has no weight. -/
theorem fits_lower (s : Shape) : s.lower.fits = s.fits := by
  unfold Shape.fits Shape.lower
  simp only [List.foldr_map, weight_lower]

/-- Only a star and a dot in front leave an ending. -/
theorem suffix?_of_ne (h : ∀ ext, glob ≠ '*' :: '.' :: ext) : suffix? glob = none := by
  unfold suffix?
  split
  · next ext => exact absurd rfl (h ext)
  · rfl

/-- A glob in lower case asks for the same ending, in lower case. -/
theorem suffix?_lowerAscii (glob : Text) :
    suffix? (lowerAscii glob) = (suffix? glob).map lowerAscii := by
  have hdot : HasNoCase '.' := by decide
  have hstar : HasNoCase '*' := by decide
  by_cases h : ∃ ext, glob = '*' :: '.' :: ext
  · obtain ⟨ext, rfl⟩ := h
    have hnil : lowerAscii ext = [] ↔ ext = [] := List.map_eq_nil_iff
    have hplain : (lowerAscii ext).any (fun c => isWildcard c || c == '/')
        = ext.any fun c => isWildcard c || c == '/' :=
      Text.any_lowerAscii (Text.apply_toLower _ (by decide)) ext
    show suffix? ('*' :: '.' :: lowerAscii ext) = _
    unfold suffix?
    simp only [hplain, hnil]
    split <;> rfl
  · rw [suffix?_of_ne fun ext he => h ⟨ext, he⟩, suffix?_of_ne fun ext he => h ?_]
    · rfl
    · obtain ⟨c, rest, rfl, hc, hrest⟩ := List.map_eq_cons_iff.1 he
      obtain ⟨d, rest, rfl, hd, -⟩ := List.map_eq_cons_iff.1 hrest
      rw [(Text.toLower_eq_iff hstar).1 hc, (Text.toLower_eq_iff hdot).1 hd]
      exact ⟨rest, rfl⟩

/-- What a glob asks for as it stands is written in it. -/
theorem mem_of_char_mem_tokens {c : Char} (h : .char c ∈ tokens t) : c ∈ t := by
  have hskip : ∀ {u : Token} {ts : List Token}, .char c ∈ u :: ts →
      .char c ≠ u → .char c ∈ ts := fun hmem =>
    (List.mem_cons.1 hmem).resolve_left
  induction t using units_induction with
  | nil => cases h
  | segments rest ih =>
      rw [tokens] at h
      exact List.mem_append_right ['*', '*', '/'] (ih (hskip h (by simp)))
  | anything rest hrest ih =>
      rw [tokens_anything hrest] at h
      exact List.mem_append_right ['*', '*'] (ih (hskip h (by simp)))
  | run rest hrest ih =>
      rw [tokens_run hrest] at h
      exact List.mem_cons_of_mem _ (ih (hskip h (by simp)))
  | single rest ih =>
      rw [tokens] at h
      exact List.mem_cons_of_mem _ (ih (hskip h (by simp)))
  | char d rest hd ih =>
      rw [tokens_char hd] at h
      rcases List.mem_cons.1 h with hcd | h
      · rw [Token.char.inj hcd]
        exact List.mem_cons_self ..
      · exact List.mem_cons_of_mem _ (ih h)

/-- What stands for itself in a shape stands in the glob. -/
theorem mem_of_char_mem_shape {c : Char} (h : .char c ∈ (shape glob).body) :
    c ∈ glob := by
  have hdrop : ∀ {b : Bool} {s : Text}, c ∈ (if b then s.dropLast else s) → c ∈ s := by
    intro b s hc
    split at hc
    · exact List.mem_of_mem_dropLast hc
    · exact hc
  have htail : ∀ {b : Bool} {s : Text}, c ∈ (if b then s.tail else s) → c ∈ s := by
    intro b s hc
    split at hc
    · exact List.mem_of_mem_tail hc
    · exact hc
  have hfree : ∀ b : Bool, .char c ∉ (if b then [Token.segments] else []) := by
    intro b
    cases b <;> simp
  unfold shape at h
  rcases List.mem_append.1 h with h | h
  · exact absurd h (hfree _)
  · exact hdrop (htail (mem_of_char_mem_tokens h))

-- ==================================================================== coverage

/-- A token for one character does not see case if its test does not. -/
theorem behindOne_lowerAscii {ok ok' : Char → Bool} (h : ∀ c, ok c.toLower = ok' c)
    (path : Text) (row : Row) :
    behindOne ok (lowerAscii path) row = behindOne ok' path row := by
  induction path generalizing row with
  | nil => rfl
  | cons c path ih =>
      cases row with
      | nil => rfl
      | cons here row =>
          show (ok c.toLower && row.headD false) :: behindOne ok (lowerAscii path) row = _
          rw [h, ih, behindOne]

/-- Nor does one for any number of characters. -/
theorem behindMany_lowerAscii {ok : Char → Bool} (h : ∀ c, ok c.toLower = ok c)
    (path : Text) (row : Row) :
    behindMany ok (lowerAscii path) row = behindMany ok path row := by
  induction path generalizing row with
  | nil => rfl
  | cons c path ih =>
      cases row with
      | nil => rfl
      | cons here row =>
          show (here || (ok c.toLower && (behindMany ok (lowerAscii path) row).headD false))
            :: behindMany ok (lowerAscii path) row = _
          rw [h, ih, behindMany]

/-- Case aside, a unit stands where it stands in lower case. -/
theorem row_lower (t : Token) (path : Text) (row : Row) :
    t.lower.row true (lowerAscii path) row = t.row true path row := by
  cases t with
  | segments =>
      show either row (behindMany isInLine (lowerAscii path)
        (behindOne isSlash (lowerAscii path) row)) = _
      rw [behindOne_lowerAscii isSlash_toLower, behindMany_lowerAscii isInLine_toLower]
      rfl
  | anything => exact behindMany_lowerAscii isInLine_toLower path row
  | run => exact behindMany_lowerAscii isInSegment_toLower path row
  | single => exact behindOne_lowerAscii isInSegment_toLower path row
  | char c => exact behindOne_lowerAscii (sameLetter_toLower c) path row

theorem endRow_lower (s : Shape) (path : Text) :
    s.lower.endRow (lowerAscii path) = s.endRow path := by
  have hend : atEnd (lowerAscii path) = atEnd path := by
    unfold atEnd lowerAscii
    rw [List.map_map]
    rfl
  unfold Shape.endRow
  rw [hend, behindMany_lowerAscii isInLine_toLower, behindOne_lowerAscii isSlash_toLower]
  rfl

/-- A shape that disregards case covers a path if it does so with both in lower
case. -/
theorem covers_lower (s : Shape) (path : Text) :
    s.lower.covers true (lowerAscii path) = s.covers true path := by
  unfold Shape.covers
  rw [endRow_lower]
  show ((s.body.map Token.lower).foldr (Token.row true (lowerAscii path)) _).headD _ = _
  rw [List.foldr_map]
  simp only [row_lower]

/-- What a test says of other characters than those of the path does not
matter. -/
theorem behindOne_congr {ok ok' : Char → Bool} {path : Text}
    (h : ∀ c ∈ path, ok c = ok' c) (row : Row) :
    behindOne ok path row = behindOne ok' path row := by
  induction path generalizing row with
  | nil => rfl
  | cons c path ih =>
      cases row with
      | nil => rfl
      | cons here row =>
          rw [behindOne, behindOne, h c (List.mem_cons_self ..),
            ih fun d hd => h d (List.mem_cons_of_mem c hd)]

/-- Between characters that folding leaves as they are, disregarding case makes
no difference. -/
theorem covers_of_folded {s : Shape}
    (hbody : ∀ c, .char c ∈ s.body → Text.foldCase c = c)
    (hpath : ∀ c ∈ path, Text.foldCase c = c) :
    s.covers true path = s.covers false path := by
  have hrow : ∀ t ∈ s.body, ∀ row : Row, t.row true path row = t.row false path row := by
    intro t ht row
    cases t with
    | char c =>
        refine behindOne_congr (fun d hd => ?_) row
        show Text.sameLetter c d = (c == d)
        unfold Text.sameLetter
        rw [hbody c ht, hpath d hd]
    | segments | anything | run | single => rfl
  unfold Shape.covers
  congr 1
  exact List.foldr_ext _ _ _ hrow

-- ==================================================================== matching

/-- What a normal glob makes of a normal path. -/
def meets (ignoreCase : Bool) (glob path : Text) : Bool :=
  match suffix? glob with
  | some tail =>
    Text.endsWith (if ignoreCase then Text.lower path else path)
      (if ignoreCase then Text.lower tail else tail)
  | none =>
    if (shape glob).fits then (shape glob).covers ignoreCase path
    else if ignoreCase then Text.sameAscii path glob else path == glob

/-- A compiled glob matches as the shortcut or the shape of its normal form
says. -/
theorem isMatch_compileWith (ignoreCase : Bool) (glob path : Text) :
    (compileWith glob ignoreCase).isMatch path
      = meets ignoreCase (normalizeGlob glob) (normalizePath path) := by
  have htest : (compileWith glob ignoreCase).test
      = testOf (normalizeGlob glob) ignoreCase := rfl
  have hcase : (compileWith glob ignoreCase).ignoreCase = ignoreCase := rfl
  unfold isMatch accepts meets
  rw [htest, hcase]
  unfold testOf generalTest
  cases suffix? (normalizeGlob glob) with
  | some tail => rfl
  | none =>
      by_cases hfits : (shape (normalizeGlob glob)).fits = true
      · simp only [if_pos hfits]
      · simp only [if_neg hfits]

/-- Case aside, a glob makes of a path what it makes of it in lower case. -/
theorem meets_lowerAscii (glob path : Text) :
    meets true (lowerAscii glob) (lowerAscii path) = meets true glob path := by
  unfold meets
  rw [suffix?_lowerAscii, shape_lowerAscii, fits_lower, covers_lower]
  cases suffix? glob with
  | some tail =>
      show Text.endsWith (Text.lower (lowerAscii path)) (Text.lower (lowerAscii tail)) = _
      rw [Text.lower_lowerAscii, Text.lower_lowerAscii]
      rfl
  | none =>
      simp only [Option.map_none, if_true, Text.sameAscii, Text.lowerAscii_lowerAscii]

/-- Between ASCII texts in lower case, case makes no difference. -/
theorem meets_of_ascii (hglob : Text.Ascii glob) (hpath : Text.Ascii path) :
    meets true (lowerAscii glob) (lowerAscii path)
      = meets false (lowerAscii glob) (lowerAscii path) := by
  have hlower : ∀ {t : Text}, Text.Ascii t → Text.lower (lowerAscii t) = lowerAscii t :=
    fun ht => (Text.lower_lowerAscii _).trans (Text.lower_of_ascii ht)
  have hcovers := covers_of_folded (s := shape (lowerAscii glob))
    (fun c hc => Text.foldCase_of_ascii hglob c (mem_of_char_mem_shape hc))
    (Text.foldCase_of_ascii hpath)
  unfold meets
  rw [hcovers, suffix?_lowerAscii]
  cases hsuffix : suffix? glob with
  | some tail =>
      obtain ⟨rfl, -⟩ := suffix?_eq_some hsuffix
      have htail : Text.Ascii tail := fun c hc => hglob c (List.mem_cons_of_mem _ hc)
      show Text.endsWith (Text.lower (lowerAscii path)) (Text.lower (lowerAscii tail)) = _
      rw [hlower hpath, hlower htail]
      rfl
  | none =>
      simp only [Option.map_none, if_true, Text.sameAscii, Text.lowerAscii_lowerAscii,
        Bool.false_eq_true, if_false]

/-- A glob that disregards case does not tell a glob and a path from the two in
lower case. -/
theorem isMatch_ignoringCase_lowerAscii (glob path : Text) :
    (compileIgnoringCase (lowerAscii glob)).isMatch (lowerAscii path)
      = (compileIgnoringCase glob).isMatch path := by
  unfold compileIgnoringCase
  rw [isMatch_compileWith, isMatch_compileWith, normalizeGlob_lowerAscii,
    normalizePath_lowerAscii, meets_lowerAscii]

/-- An ASCII glob that disregards case makes of an ASCII path what the glob in
lower case makes of the path in lower case. -/
theorem isMatch_ignoringCase_of_ascii (hglob : Text.Ascii glob)
    (hpath : Text.Ascii path) :
    (compileIgnoringCase glob).isMatch path
      = (compile (Text.lower glob)).isMatch (Text.lower path) := by
  have hnormalGlob : Text.Ascii (normalizeGlob glob) :=
    hglob.trim.replace (by decide)
  have hnormalPath : Text.Ascii (normalizePath path) := fun c hc =>
    hpath.replace (by decide) c ((normalizePath_isSuffix_replace path).subset hc)
  rw [Text.lower_of_ascii hglob, Text.lower_of_ascii hpath]
  unfold compile compileIgnoringCase
  rw [isMatch_compileWith, isMatch_compileWith, normalizeGlob_lowerAscii,
    normalizePath_lowerAscii, ← meets_of_ascii hnormalGlob hnormalPath,
    meets_lowerAscii]

/-- It is the comparison of endings that it is in lower case. -/
theorem isSuffix_ignoringCase (glob : Text) :
    (compileIgnoringCase glob).isSuffix = (compile (lowerAscii glob)).isSuffix := by
  have hsuffix : ∀ (ignoreCase : Bool) (glob : Text),
      (compileWith glob ignoreCase).isSuffix = (suffix? (normalizeGlob glob)).isSome := by
    intro ignoreCase glob
    have htest : (compileWith glob ignoreCase).test
        = testOf (normalizeGlob glob) ignoreCase := rfl
    unfold isSuffix
    rw [htest]
    unfold testOf generalTest
    cases suffix? (normalizeGlob glob) with
    | some tail => rfl
    | none =>
        by_cases hfits : (shape (normalizeGlob glob)).fits = true
        · simp only [if_pos hfits, Option.isSome_none]
        · simp only [if_neg hfits, Option.isSome_none]
  unfold compile compileIgnoringCase
  rw [hsuffix, hsuffix, normalizeGlob_lowerAscii, suffix?_lowerAscii, Option.isSome_map]

end Glob

end SourceDigest
