/-
Paths in normal form, as globs see them.

A path is made normal in three steps: its backslashes become slashes, the
`./` that lead it are taken off, and then the slashes that lead the rest.
What comes out holds no backslash (`backslash_notMem_normalizePath`) and
begins with no slash (`head?_normalizePath_ne`). But every step is taken
once, and slashes that are taken off last may have stood in front of
another `./` (`Uncovers`). Those paths are the ones whose normal form
begins with `./` (`here_isPrefix_normalizePath_iff`), and the ones that
are not through with being made normal (`normalizePath_normalizePath_iff`).
-/
import Mathlib
import SourceDigest.Glob
import SourceDigest.Proofs.Text.Pieces

namespace SourceDigest

namespace Glob

variable {t path : Text}

-- ================================================================ backslashes

/-- With the backslashes turned none is left. -/
theorem backslash_notMem_replace (t : Text) :
    '\\' ∉ Text.replace '\\' '/' t := by
  intro h
  obtain ⟨c, -, hc⟩ := List.mem_map.1 h
  by_cases hback : c = '\\'
  · rw [if_pos hback] at hc
    cases hc
  · rw [if_neg hback] at hc
    exact hback hc

/-- And where there is none nothing is turned. -/
theorem replace_of_backslash_notMem (h : '\\' ∉ t) :
    Text.replace '\\' '/' t = t := by
  calc Text.replace '\\' '/' t = t.map id :=
        List.map_congr_left fun c hc => if_neg fun he : c = '\\' => h (he ▸ hc)
    _ = t := List.map_id t

-- ====================================================================== leads

/-- What stands for the directory that a path starts from. -/
def here : Text := ['.', '/']

theorem dropHere_here_append (t : Text) : dropHere (here ++ t) = dropHere t :=
  rfl

/-- Without `./` in front nothing is taken off. -/
theorem dropHere_of_not_isPrefix (h : ¬ here <+: t) : dropHere t = t := by
  rw [dropHere]
  intro rest hrest
  exact h ⟨rest, hrest.symm⟩

/-- Texts by the `./` that lead them. -/
theorem here_induction {motive : Text → Prop}
    (more : ∀ rest, motive rest → motive (here ++ rest))
    (done : ∀ t, ¬ here <+: t → motive t) (t : Text) : motive t := by
  induction t using dropHere.induct with
  | case1 rest ih => exact more rest ih
  | case2 t ht =>
      exact done t fun h => h.elim fun rest hrest => ht rest hrest.symm

/-- What leads a text as `./`, however often, and what is left of it. -/
theorem dropHere_spec (t : Text) :
    (∃ n, t = (List.replicate n here).flatten ++ dropHere t)
      ∧ ¬ here <+: dropHere t := by
  induction t using here_induction with
  | more rest ih =>
      obtain ⟨⟨n, hn⟩, hrest⟩ := ih
      rw [dropHere_here_append]
      refine ⟨⟨n + 1, ?_⟩, hrest⟩
      rw [List.replicate_succ, List.flatten_cons, List.append_assoc, ← hn]
  | done t hlead =>
      rw [dropHere_of_not_isPrefix hlead]
      exact ⟨⟨0, rfl⟩, hlead⟩

/-- Every `./` at the front is taken off. -/
theorem dropHere_replicate_append (n : Nat) (t : Text) :
    dropHere ((List.replicate n here).flatten ++ t) = dropHere t := by
  induction n with
  | zero => rfl
  | succ n ih =>
      rw [List.replicate_succ, List.flatten_cons, List.append_assoc,
        dropHere_here_append, ih]

/-- What is left is an end of the text. -/
theorem dropHere_isSuffix (t : Text) : dropHere t <:+ t := by
  obtain ⟨⟨n, hn⟩, -⟩ := dropHere_spec t
  exact ⟨_, hn.symm⟩

/-- A text is the slashes that lead it and the rest. -/
theorem exists_replicate_slash (t : Text) :
    ∃ n, t = List.replicate n '/' ++ t.dropWhile (· == '/') := by
  have hslashes : t.takeWhile (· == '/')
      = List.replicate (t.takeWhile (· == '/')).length '/' :=
    List.eq_replicate_iff.2
      ⟨rfl, fun c hc => by simpa using List.mem_takeWhile_imp hc⟩
  refine ⟨(t.takeWhile (· == '/')).length, ?_⟩
  rw [← hslashes, List.takeWhile_append_dropWhile]

-- =============================================================== normal paths

/-- So the normal form is an end of the path with its backslashes turned. -/
theorem normalizePath_isSuffix_replace (path : Text) :
    normalizePath path <:+ Text.replace '\\' '/' path :=
  (List.dropWhile_suffix _).trans (dropHere_isSuffix _)

theorem backslash_notMem_normalizePath (path : Text) :
    '\\' ∉ normalizePath path := fun h =>
  backslash_notMem_replace path
    ((normalizePath_isSuffix_replace path).subset h)

/-- A normal form does not begin with a slash. -/
theorem head?_normalizePath_ne (path : Text) :
    (normalizePath path).head? ≠ some '/' := by
  intro h
  have hstop := List.head?_dropWhile_not (· == '/')
    (dropHere (Text.replace '\\' '/' path))
  unfold normalizePath at h
  rw [h] at hstop
  simp at hstop

/-- A normal form is no longer than the path. -/
theorem length_normalizePath_le (path : Text) :
    (normalizePath path).length ≤ path.length := by
  have h := (normalizePath_isSuffix_replace path).length_le
  unfold Text.replace at h
  rwa [List.length_map] at h

/-- What is normal is left as it is. -/
theorem normalizePath_eq_self (hback : '\\' ∉ t) (hslash : t.head? ≠ some '/')
    (hhere : ¬ here <+: t) : normalizePath t = t := by
  unfold normalizePath
  rw [replace_of_backslash_notMem hback, dropHere_of_not_isPrefix hhere]
  cases t with
  | nil => rfl
  | cons c t =>
      rw [List.dropWhile_cons_of_neg]
      simpa using hslash

/-- Backslashes are turned on either side of a slash. -/
theorem replace_append_slash (path more : Text) :
    Text.replace '\\' '/' (path ++ '/' :: more)
      = Text.replace '\\' '/' path ++ '/' :: Text.replace '\\' '/' more := by
  unfold Text.replace
  rw [List.map_append, List.map_cons]
  rfl

/-- Something stays in front of what is put below a path: what is left of it
without the `./` that lead it is no `.`, and more than slashes. -/
def KeepsFront (path : Text) : Prop :=
  dropHere (Text.replace '\\' '/' path) ≠ ['.'] ∧ normalizePath path ≠ []

instance : DecidablePred KeepsFront := fun path =>
  inferInstanceAs (Decidable
    (dropHere (Text.replace '\\' '/' path) ≠ ['.'] ∧ normalizePath path ≠ []))

/-- Of a path that keeps its front something is left behind the `./`. -/
theorem KeepsFront.dropHere_ne_nil (h : KeepsFront path) :
    dropHere (Text.replace '\\' '/' path) ≠ [] := fun hnil =>
  h.2 (by unfold normalizePath; rw [hnil]; rfl)

/-- And what is taken off stands in it, whatever is below. -/
theorem KeepsFront.dropHere_append (h : KeepsFront path) (more : Text) :
    dropHere (Text.replace '\\' '/' (path ++ '/' :: more))
      = dropHere (Text.replace '\\' '/' path)
        ++ '/' :: Text.replace '\\' '/' more := by
  obtain ⟨⟨n, hn⟩, hlead⟩ := dropHere_spec (Text.replace '\\' '/' path)
  rw [replace_append_slash]
  conv_lhs => rw [hn, List.append_assoc, dropHere_replicate_append]
  refine dropHere_of_not_isPrefix fun hhere => ?_
  obtain ⟨c, rest, hrest⟩ := List.exists_cons_of_ne_nil h.dropHere_ne_nil
  rw [hrest] at hhere hlead
  cases rest with
  | nil =>
      obtain ⟨rfl, -⟩ := List.cons_prefix_cons.1 hhere
      exact h.1 hrest
  | cons d rest =>
      obtain ⟨rfl, htail⟩ := List.cons_prefix_cons.1 hhere
      obtain ⟨rfl, -⟩ := List.cons_prefix_cons.1 htail
      exact hlead ⟨rest, rfl⟩

/-- What is put below such a path is put below its normal form. -/
theorem KeepsFront.normalizePath_append (h : KeepsFront path) (more : Text) :
    normalizePath (path ++ '/' :: more)
      = normalizePath path ++ '/' :: Text.replace '\\' '/' more := by
  have hne := h.2
  unfold normalizePath at hne ⊢
  rw [h.dropHere_append, List.dropWhile_append, if_neg (by simpa using hne)]

/-- What is below a path that keeps its front keeps it too. -/
theorem KeepsFront.append (h : KeepsFront path) (more : Text) :
    KeepsFront (path ++ '/' :: more) := by
  refine ⟨?_, ?_⟩
  · rw [h.dropHere_append]
    intro hdot
    obtain ⟨hnil, -⟩ | ⟨-, hcons⟩ := List.append_eq_singleton_iff.1 hdot
    · exact h.dropHere_ne_nil hnil
    · cases hcons
  · rw [h.normalizePath_append]
    exact List.append_ne_nil_of_left_ne_nil h.2 _

/-- What is put below a path that does not keep its front may lose it. -/
theorem normalizePath_append_of_not_keepsFront (h : ¬ KeepsFront path) :
    (normalizePath path = [] ∨ normalizePath path = ['.'])
      ∧ normalizePath (path ++ ['/', 'f']) = ['f'] := by
  obtain ⟨⟨n, hn⟩, -⟩ := dropHere_spec (Text.replace '\\' '/' path)
  have hdrop : dropHere (Text.replace '\\' '/' (path ++ ['/', 'f']))
      = dropHere (dropHere (Text.replace '\\' '/' path) ++ ['/', 'f']) := by
    rw [replace_append_slash]
    conv_lhs => rw [hn, List.append_assoc, dropHere_replicate_append]
    rfl
  by_cases hdot : dropHere (Text.replace '\\' '/' path) = ['.']
  · unfold normalizePath
    rw [hdrop, hdot]
    exact ⟨Or.inr rfl, rfl⟩
  · have hnil : normalizePath path = [] := by
      by_contra hne
      exact h ⟨hdot, hne⟩
    refine ⟨Or.inl hnil, ?_⟩
    obtain ⟨m, hm⟩ := exists_replicate_slash
      (dropHere (Text.replace '\\' '/' path))
    unfold normalizePath at hnil ⊢
    rw [hnil, List.append_nil] at hm
    have hlead : ¬ here <+: List.replicate m '/' ++ ['/', 'f'] := by
      cases m with
      | zero => decide
      | succ m =>
          rw [List.replicate_succ, List.cons_append]
          exact fun hhere => absurd (List.cons_prefix_cons.1 hhere).1 (by decide)
    rw [hdrop, hm, dropHere_of_not_isPrefix hlead,
      List.dropWhile_append_of_pos fun c hc => by simp [List.eq_of_mem_replicate hc]]
    rfl

/-- A path without backslashes keeps its front when its first segment is a
name. -/
theorem keepsFront_of_before (hback : '\\' ∉ path)
    (hne : Text.before '/' path ≠ []) (hdot : Text.before '/' path ≠ ['.']) :
    KeepsFront path := by
  have hhere : ¬ here <+: path := by
    rintro ⟨rest, rfl⟩
    exact hdot rfl
  have hslash : path.head? ≠ some '/' := by
    intro hhead
    obtain ⟨rest, rfl⟩ := List.head?_eq_some_iff.1 hhead
    exact hne rfl
  refine ⟨?_, ?_⟩
  · rw [replace_of_backslash_notMem hback, dropHere_of_not_isPrefix hhere]
    rintro rfl
    exact hdot rfl
  · rw [normalizePath_eq_self hback hslash hhere]
    rintro rfl
    exact hne rfl

-- ============================================================ uncovered leads

/-- Behind the `./` that lead a path stand slashes, and behind them another
`./`. -/
def Uncovers (path : Text) : Prop :=
  ∃ n m rest, Text.replace '\\' '/' path
    = (List.replicate n here).flatten
      ++ (List.replicate (m + 1) '/' ++ (here ++ rest))

/-- A normal form begins with `./` just where the slashes of the path uncover
it. -/
theorem here_isPrefix_normalizePath_iff :
    here <+: normalizePath path ↔ Uncovers path := by
  obtain ⟨⟨n, hn⟩, hlead⟩ := dropHere_spec (Text.replace '\\' '/' path)
  obtain ⟨m, hm⟩ := exists_replicate_slash
    (dropHere (Text.replace '\\' '/' path))
  constructor
  · intro h
    obtain ⟨rest, hrest⟩ := h
    have hdrop : (dropHere (Text.replace '\\' '/' path)).dropWhile (· == '/')
        = here ++ rest := hrest.symm
    rw [hdrop] at hm
    cases m with
    | zero => exact absurd ⟨rest, hm.symm⟩ hlead
    | succ m => exact ⟨n, m, rest, hm ▸ hn⟩
  · intro h
    obtain ⟨n, m, rest, hpath⟩ := h
    have hdrop : dropHere (Text.replace '\\' '/' path)
        = List.replicate (m + 1) '/' ++ (here ++ rest) := by
      rw [hpath, dropHere_replicate_append, dropHere_of_not_isPrefix]
      rw [List.replicate_succ, List.cons_append]
      intro hprefix
      exact absurd (List.cons_prefix_cons.1 hprefix).1 (by decide)
    refine ⟨rest, ?_⟩
    unfold normalizePath
    rw [hdrop, List.dropWhile_append_of_pos fun c hc => by
      simp [List.eq_of_mem_replicate hc]]
    rfl

/-- A path that is led by `./` loses at least that. -/
theorem length_normalizePath_here (rest : Text) :
    (normalizePath (here ++ rest)).length ≤ rest.length := by
  have h : normalizePath (here ++ rest) = normalizePath rest := rfl
  rw [h]
  exact length_normalizePath_le rest

/-- A path is normal when made so once, unless it uncovers a `./`. -/
theorem normalizePath_normalizePath_iff :
    normalizePath (normalizePath path) = normalizePath path
      ↔ ¬ Uncovers path := by
  rw [← here_isPrefix_normalizePath_iff]
  constructor
  · intro h hhere
    obtain ⟨rest, hrest⟩ := hhere
    have hshort := length_normalizePath_here rest
    rw [hrest, h, ← hrest] at hshort
    simp [here] at hshort
  · exact normalizePath_eq_self (backslash_notMem_normalizePath path)
      (head?_normalizePath_ne path)

end Glob

end SourceDigest
