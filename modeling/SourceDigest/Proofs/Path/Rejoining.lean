/-
Paths that are joined to their root a second time.

A walk gives the paths below a root with the root in front. Seen from
there and joined to it again such a path is itself
(`join_relativeTo_below`). Joined without being seen from there first, it
gets the root in front once more, and `relativeTo_join_below` says what is
left of that: nothing when the root is absolute, since joining an absolute
path replaces the root, and otherwise the parts of the root but for a
leading `.` (`doubled`). So it does no harm exactly when the root is
absolute or only the working directory (`doubled_eq_nil_iff`). Otherwise
every path is longer than it should be, and so are all of them together:
they cannot be the right ones in another order (`perm_withDoubled_iff`).
-/
import Mathlib
import SourceDigest.Proofs.Path.Spelling

namespace SourceDigest

namespace Path

variable {root : Path} {n : Text} {names : List Text}

-- =================================================================== one root

/-- A path below a root is absolute if the root is. -/
theorem isAbsolute_below (hroot : root ≠ []) (hnames : ∀ n ∈ names, IsName n) :
    isAbsolute (below root names) = isAbsolute root := by
  induction names generalizing root with
  | nil => rfl
  | cons n names ih =>
      have hn := hnames n (List.mem_cons_self ..)
      rw [below_cons, ih (join_ne_nil hn) fun m hm =>
        hnames m (List.mem_cons_of_mem _ hm),
        isAbsolute_join hroot hn.not_isAbsolute]

/-- Its parts are those of the root and the names. -/
theorem innerParts_below (hroot : root ≠ []) (hnames : ∀ n ∈ names, IsName n) :
    innerParts (below root names) = innerParts root ++ names.map .name := by
  induction names generalizing root with
  | nil => rw [below_nil, List.map_nil, List.append_nil]
  | cons n names ih =>
      have hn := hnames n (List.mem_cons_self ..)
      rw [below_cons, ih (join_ne_nil hn) fun m hm =>
        hnames m (List.mem_cons_of_mem _ hm),
        innerParts_join hroot hn.not_isAbsolute, hn.innerParts,
        List.append_assoc, List.singleton_append, List.map_cons]

/-- Names that are written out do not start at the root. -/
theorem not_isAbsolute_join (hnames : ∀ n ∈ names, IsName n) :
    isAbsolute (Text.join ['/'] names) = false := by
  cases names with
  | nil => rfl
  | cons n more =>
      have hn := hnames n (List.mem_cons_self ..)
      obtain ⟨c, rest, rfl⟩ := List.exists_cons_of_ne_nil hn.ne_nil
      cases more with
      | nil => exact hn.not_isAbsolute
      | cons m more => exact hn.not_isAbsolute

/-- Behind a name a slash is written for what is joined next. -/
theorem join_join_name {t : Text} (hroot : root ≠ []) (hn : IsName n)
    (ht : isAbsolute t = false) :
    join (join root n) t = join root (n ++ '/' :: t) := by
  have hnt : isAbsolute (n ++ '/' :: t) = false := by
    obtain ⟨c, rest, rfl⟩ := List.exists_cons_of_ne_nil hn.ne_nil
    exact hn.not_isAbsolute
  have hlast : (join root n).getLast? ≠ some '/' := by
    intro hlast
    obtain ⟨d, hd, -⟩ := join_eq_append hroot hn.not_isAbsolute
    rw [hd, ← List.singleton_append, ← List.append_assoc,
      List.getLast?_append_of_ne_nil _ hn.ne_nil] at hlast
    exact hn.notMem_slash (List.mem_of_getLast? hlast)
  have houter : join (join root n) t = join root n ++ '/' :: t := by
    rw [join, ht, if_neg Bool.false_ne_true, if_neg (join_ne_nil hn),
      if_neg (by simpa using hlast)]
  rw [houter]
  unfold join
  rw [hn.not_isAbsolute, hnt]
  simp only [Bool.false_eq_true, if_false, if_neg hroot]
  split <;> simp

/-- Names that are joined one by one may be joined all at once. -/
theorem join_join_names (hroot : root ≠ []) (hnames : ∀ n ∈ names, IsName n)
    (hne : names ≠ []) :
    join root (Text.join ['/'] names) = below root names := by
  induction names generalizing root with
  | nil => exact absurd rfl hne
  | cons n names ih =>
      have hn := hnames n (List.mem_cons_self ..)
      have hmore := fun m hm => hnames m (List.mem_cons_of_mem _ hm)
      by_cases hnil : names = []
      · rw [hnil, Text.join_singleton]
        rfl
      · rw [below_cons, ← ih (join_ne_nil hn) hmore hnil,
          join_join_name hroot hn (not_isAbsolute_join hmore),
          Text.join_cons _ _ hnil, List.append_assoc, List.singleton_append]

/-- A path below a root, seen from there, leads from there to itself. -/
theorem join_relativeTo_below (hroot : root ≠ [])
    (hnames : ∀ n ∈ names, IsName n) (hne : names ≠ []) :
    join root (relativeTo root (below root names)) = below root names := by
  rw [relativeTo_below hnames, join_join_names hroot hnames hne]

-- ================================================================== two roots

/-- The parts of a root that are left when a path below it is joined to it
again and seen from there. -/
def doubled (root : Path) : List Part :=
  if isAbsolute root then [] else innerParts root

/-- A path as seen from a root, with those parts in front. -/
def withDoubled (root : Path) (t : Text) : Text :=
  Text.join ['/'] ((doubled root).map Part.text ++ [t])

theorem relativeTo_join_below (hroot : root ≠ [])
    (hnames : ∀ n ∈ names, IsName n) (hne : names ≠ []) :
    relativeTo root (join root (below root names))
      = withDoubled root (relativeTo root (below root names)) := by
  have habs := isAbsolute_below hroot hnames
  rw [relativeTo_below hnames]
  unfold withDoubled doubled
  by_cases h : isAbsolute root = true
  · have hjoin : join root (below root names) = below root names := by
      unfold join
      rw [habs, if_pos h]
    rw [hjoin, if_pos h, relativeTo_below hnames]
    rfl
  · rw [if_neg h]
    rw [Bool.not_eq_true] at h
    rw [h] at habs
    have hparts : parts (join root (below root names))
        = parts root ++ (innerParts root ++ names.map .name) := by
      rw [parts_join_of_relative hroot habs, innerParts_below hroot hnames]
    have hwritten : ofParts (names.map .name) = Text.join ['/'] names := by
      unfold ofParts
      rw [List.map_map]
      exact congrArg _ (List.map_id'' (fun _ => rfl) names)
    rw [relativeTo_of_parts_eq_append hparts, ← hwritten]
    unfold ofParts
    by_cases hnil : innerParts root = []
    · rw [hnil]
      rfl
    · rw [List.map_append,
        Text.join_append _ (by simpa using hnil) (by simpa using hne),
        Text.join_append _ (by simpa using hnil) (List.cons_ne_nil _ _),
        Text.join_singleton]

/-- A root that may stand in front of a path below it again. -/
def IsAnchor (root : Path) : Prop :=
  isAbsolute root = true ∨ parts root = [.here]

instance (root : Path) : Decidable (IsAnchor root) :=
  inferInstanceAs (Decidable (_ ∨ _))

/-- Only of an absolute root and of the working directory nothing is left. -/
theorem doubled_eq_nil_iff (hroot : root ≠ []) :
    doubled root = [] ↔ IsAnchor root := by
  unfold doubled IsAnchor
  by_cases h : isAbsolute root = true
  · simp [h]
  · rw [if_neg h, or_iff_right h]
    obtain ⟨c, rest, rfl⟩ := List.exists_cons_of_ne_nil hroot
    have hc : c ≠ '/' := by simpa [isAbsolute] using h
    obtain ⟨first, inner, hsplit⟩ := exists_splitOn_cons hc rest
    unfold innerParts parts
    rw [hsplit]
    dsimp only
    rw [if_neg (List.cons_ne_nil c first)]
    by_cases hhere : c :: first = ['.']
    · rw [if_pos hhere, hhere]
      simp [Part.ofInner?]
    · obtain ⟨a, ha, hne⟩ :
          ∃ a, Part.ofInner? (c :: first) = some a ∧ a ≠ .here := by
        unfold Part.ofInner?
        rw [if_neg (by simpa using hhere)]
        split
        · exact ⟨.up, rfl, by simp⟩
        · exact ⟨.name (c :: first), rfl, by simp⟩
      rw [if_neg hhere, List.filterMap_cons_some ha, ha]
      simp [hne]

example : IsAnchor "/r" ∧ IsAnchor "./" ∧ ¬IsAnchor "r" ∧ ¬IsAnchor "./r" := by
  decide

/-- An anchor has nothing that could be doubled. -/
theorem withDoubled_of_isAnchor (hroot : root ≠ []) (h : IsAnchor root)
    (t : Text) : withDoubled root t = t := by
  rw [withDoubled, (doubled_eq_nil_iff hroot).2 h]
  rfl

/-- What is left of any other root takes room. -/
theorem length_lt_withDoubled (hroot : root ≠ []) (h : ¬ IsAnchor root)
    (t : Text) : t.length < (withDoubled root t).length := by
  have hne : doubled root ≠ [] := fun hnil =>
    h ((doubled_eq_nil_iff hroot).1 hnil)
  rw [withDoubled, Text.join_append _ (by simpa using hne) (List.cons_ne_nil _ _),
    Text.join_singleton]
  simp only [List.length_append, List.length_singleton]
  omega

/-- Paths with what is left in front are the paths without it, in some order,
only if nothing is left or there are none. -/
theorem perm_withDoubled_iff (hroot : root ≠ []) {ts us : List Text}
    (h : us.Perm (ts.map (withDoubled root))) :
    us.Perm ts ↔ IsAnchor root ∨ ts = [] := by
  constructor
  · intro hperm
    by_contra hneither
    obtain ⟨hanchor, hne⟩ := not_or.1 hneither
    -- all of them together are longer
    have hlt := List.sum_lt_sum_of_ne_nil hne List.length
      (List.length ∘ withDoubled root)
      fun t _ => length_lt_withDoubled hroot hanchor t
    have heq := ((hperm.symm.trans h).map List.length).sum_eq
    rw [List.map_map] at heq
    exact absurd heq hlt.ne
  · rintro (hanchor | hnil)
    · rwa [List.map_congr_left fun t _ => withDoubled_of_isAnchor hroot hanchor t,
        List.map_id'] at h
    · rw [hnil] at h ⊢
      exact h

end Path

end SourceDigest
