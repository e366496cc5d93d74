/-
Where a relative import leads: the walk along its segments.

The walk starts at the root, goes along the directory of the importer and
then along the specifier (`Walk`). A name takes it one directory down, two
dots take it up again, and all else leaves it where it is; it leaves the
repository when two dots come while it is at the root (`LeavesRoot`). One
step of the program is one step of a walk (`Walk.of_step?`), so the location
of a path is where its walk ends (`foldlM_step?_eq_some_iff`,
`Walk.location?_eq`), and the two kinds of walk are all there are
(`foldlM_step?_eq_none_iff`).

A piece that ends where it starts can be put into a specifier anywhere
without changing where the walk ends (`foldlM_step?_of_inserts`), so what an import
leads to is the same for all spellings of one place.
-/
import Mathlib
import SourceDigest.Proofs.Imports.Location

namespace SourceDigest

namespace FileIndex

variable {segments segments' names names' : List Text} {s : Text}
  {index : FileIndex}

-- ====================================================================== walks

/-- The directories from the root down to where a walk along some segments
has come. -/
inductive Walk : List Text → List Text → Prop
  | start : Walk [] []
  /-- A dot or an empty segment stays. -/
  | stay {segments dirs s} : Walk segments dirs → s = [] ∨ s = ['.'] →
      Walk (segments ++ [s]) dirs
  /-- Two dots take back the last directory. -/
  | up {segments dirs d} : Walk segments (dirs ++ [d]) →
      Walk (segments ++ [['.', '.']]) dirs
  /-- Any other segment goes one directory down. -/
  | down {segments dirs s} : Walk segments dirs →
      s ≠ [] → s ≠ ['.'] → s ≠ ['.', '.'] → Walk (segments ++ [s]) (dirs ++ [s])

/-- A walk is at the root when two dots come, whatever comes after them. -/
def LeavesRoot (segments : List Text) : Prop :=
  ∃ before after, segments = before ++ ['.', '.'] :: after ∧ Walk before []

/-- One step with the last directory first is one step of a walk. -/
theorem Walk.of_step? {before walked : List Text} (h : Walk segments before.reverse)
    (hs : step? before s = some walked) : Walk (segments ++ [s]) walked.reverse := by
  unfold step? at hs
  split at hs
  · rename_i hstay
    obtain rfl := Option.some.inj hs
    exact h.stay hstay
  · rename_i hstay
    obtain ⟨hnil, hdot⟩ := not_or.1 hstay
    split at hs
    · rename_i hup
      subst hup
      cases before with
      | nil => cases hs
      | cons d before =>
          obtain rfl := Option.some.inj hs
          rw [List.reverse_cons] at h
          exact h.up
    · rename_i hup
      obtain rfl := Option.some.inj hs
      rw [List.reverse_cons]
      exact h.down hnil hdot hup

/-- Where a walk ends the segments lead. -/
theorem Walk.foldlM_step? (h : Walk segments names) :
    segments.foldlM step? [] = some names.reverse := by
  induction h with
  | start => rfl
  | stay _ hs ih =>
      rw [List.foldlM_append, ih]
      show step? _ _ >>= _ = _
      rw [step?_stay hs]
      rfl
  | up _ ih =>
      rw [List.foldlM_append, ih, List.reverse_append]
      rfl
  | down _ hnil hdot hup ih =>
      rw [List.foldlM_append, ih, List.reverse_append]
      show step? _ _ >>= _ = _
      rw [step?_down hnil hdot hup]
      rfl

/-- Walking segment by segment, with the last directory first, is a walk. -/
theorem foldlM_step?_eq_some_iff {walked : List Text} :
    segments.foldlM step? [] = some walked ↔ Walk segments walked.reverse := by
  constructor
  · intro h
    induction segments using List.reverseRecOn generalizing walked with
    | nil =>
        obtain rfl := Option.some.inj h
        exact .start
    | append_singleton front s ih =>
        rw [List.foldlM_append, Option.bind_eq_bind, Option.bind_eq_some_iff] at h
        obtain ⟨before, hbefore, hs⟩ := h
        exact (ih hbefore).of_step? (by simpa [List.foldlM_cons] using hs)
  · intro h
    rw [h.foldlM_step?, List.reverse_reverse]

/-- A walk ends in one place. -/
theorem Walk.unique (h : Walk segments names) (h' : Walk segments names') :
    names = names' := by
  rw [← List.reverse_reverse names, ← foldlM_step?_eq_some_iff] at h
  rw [← List.reverse_reverse names', ← foldlM_step?_eq_some_iff, h,
    Option.some.injEq] at h'
  exact List.reverse_injective h'

/-- Every walk that ends nowhere leaves the root at some segment. -/
theorem foldlM_step?_eq_none_iff :
    segments.foldlM step? [] = none ↔ LeavesRoot segments := by
  constructor
  · intro h
    induction segments using List.reverseRecOn with
    | nil => cases h
    | append_singleton front s ih =>
        rw [List.foldlM_append, Option.bind_eq_bind] at h
        cases hfront : front.foldlM step? [] with
        | none =>
            obtain ⟨before, after, rfl, hbefore⟩ := ih hfront
            exact ⟨before, after ++ [s], by simp, hbefore⟩
        | some walked =>
            rw [hfront] at h
            replace h : step? walked s = none := by
              simpa [List.foldlM_cons] using h
            unfold step? at h
            split at h
            · cases h
            · split at h
              · rename_i hup
                subst hup
                cases walked with
                | nil => exact ⟨front, [], rfl, foldlM_step?_eq_some_iff.1 hfront⟩
                | cons d walked => cases h
              · cases h
  · rintro ⟨before, after, rfl, hbefore⟩
    have hroot : before.foldlM step? [] = some [] :=
      foldlM_step?_eq_some_iff.2 hbefore
    rw [List.foldlM_append, hroot]
    rfl

/-- A walk either leaves the root or ends somewhere. -/
theorem exists_walk_of_not_leavesRoot (h : ¬ LeavesRoot segments) :
    ∃ names, Walk segments names := by
  cases hwalked : segments.foldlM step? [] with
  | none => exact absurd (foldlM_step?_eq_none_iff.1 hwalked) h
  | some walked => exact ⟨_, foldlM_step?_eq_some_iff.1 hwalked⟩

-- ================================================================== locations

/-- A path below a directory is walked along both. -/
theorem location?_inDir_eq (dir spec : Text) :
    location? (inDir dir spec)
      = ((Text.splitOn '/' dir ++ Text.splitOn '/' spec).foldlM step? []).map
          fun walked => Text.join ['/'] walked.reverse := by
  unfold location? inDir
  by_cases hnil : dir = []
  · rw [if_pos hnil, hnil]
    rfl
  · rw [if_neg hnil, Text.splitOn_append]
    rfl

/-- A walk from the directory of a file ends where the location is. -/
theorem Walk.location?_eq {dir spec : Text}
    (h : Walk (Text.splitOn '/' dir ++ Text.splitOn '/' spec) names) :
    location? (inDir dir spec) = some (Text.join ['/'] names) := by
  rw [← List.reverse_reverse names, ← foldlM_step?_eq_some_iff] at h
  rw [location?_inDir_eq, h, Option.map_some, List.reverse_reverse]

/-- A walk that leaves the root has no location. -/
theorem LeavesRoot.location?_eq {dir spec : Text}
    (h : LeavesRoot (Text.splitOn '/' dir ++ Text.splitOn '/' spec)) :
    location? (inDir dir spec) = none := by
  rw [location?_inDir_eq, foldlM_step?_eq_none_iff.2 h]
  rfl

/-- A walk goes into directories of the segments only, which have names. -/
theorem Walk.isName (h : Walk segments names)
    (hsegments : ∀ s ∈ segments, '/' ∉ s) : ∀ n ∈ names, Path.IsName n := by
  induction h with
  | start => simp
  | stay _ _ ih =>
      exact ih fun s hs => hsegments s (List.mem_append_left _ hs)
  | up _ ih =>
      intro n hn
      exact ih (fun s hs => hsegments s (List.mem_append_left _ hs)) n
        (List.mem_append_left _ hn)
  | down _ hnil hdot hup ih =>
      intro n hn
      rcases List.mem_append.1 hn with hn | hn
      · exact ih (fun s hs => hsegments s (List.mem_append_left _ hs)) n hn
      · rw [List.mem_singleton.1 hn]
        exact ⟨hnil, hsegments _ (by simp), hdot, hup⟩

-- ================================================================== spellings

/-- A piece is put in that ends where it starts: a dot, an empty segment as
between two slashes, or a name that is taken back at once. -/
inductive Inserts : List Text → List Text → Prop
  | stay {before after s} : s = [] ∨ s = ['.'] →
      Inserts (before ++ after) (before ++ s :: after)
  | back {before after n} : Path.IsName n →
      Inserts (before ++ after) (before ++ n :: ['.', '.'] :: after)

/-- What is put in does not change where the segments lead. -/
theorem Inserts.foldlM_step? (h : Inserts segments segments')
    (walked : List Text) :
    segments'.foldlM step? walked = segments.foldlM step? walked := by
  cases h with
  | stay hs =>
      rw [List.foldlM_append, List.foldlM_append]
      refine bind_congr fun here => ?_
      rw [List.foldlM_cons, step?_stay hs]
      rfl
  | back hn =>
      rw [List.foldlM_append, List.foldlM_append]
      refine bind_congr fun here => ?_
      rw [List.foldlM_cons, step?_name hn]
      rfl

/-- However many pieces are put in, the walk is the same. -/
theorem foldlM_step?_of_inserts
    (h : Relation.ReflTransGen Inserts segments segments')
    (walked : List Text) :
    segments'.foldlM step? walked = segments.foldlM step? walked := by
  induction h with
  | refl => rfl
  | tail _ hlast ih => rw [hlast.foldlM_step?, ih]

/-- Where a path leads is settled by where the walk along it ends. -/
theorem location?_inDir_of_inserts {spec spec' : Text} (dir : Text)
    (h : Relation.ReflTransGen Inserts (Text.splitOn '/' spec)
      (Text.splitOn '/' spec')) :
    location? (inDir dir spec') = location? (inDir dir spec) := by
  rw [location?_inDir_eq, location?_inDir_eq, List.foldlM_append,
    List.foldlM_append]
  congr 1
  exact bind_congr fun here => foldlM_step?_of_inserts h here

-- ================================================================= resolution

/-- A location below the root is probed in the order of its candidates. -/
theorem probe?_of_location? {path location : Text}
    (h : location? path = some location) (hne : location ≠ []) :
    index.probe? path = (candidates location).find? (index.files.contains ·) := by
  obtain ⟨c, rest, rfl⟩ := List.exists_cons_of_ne_nil hne
  unfold probe?
  rw [h]

/-- A relative import is walked along from the directory of its importer.
If the walk leaves the root, it leads nowhere, wherever the walk would go on
to. Otherwise the walk ends, and if it does so below the root, the import
leads to the first file there is among the location as it is written, with
each extension, and with each index file below it; no other file is ever
asked for. Spellings of one place lead to the same file. -/
theorem relative_leads_where_walk_ends (index : FileIndex)
    (importer spec : Text) :
    let segments := Text.splitOn '/' (parentDir importer)
      ++ Text.splitOn '/' spec
    (LeavesRoot segments →
        index.resolve? importer (.relative spec) = none)
      ∧ (¬ LeavesRoot segments → ∃ names, Walk segments names)
      ∧ (∀ names, Walk segments names → names ≠ [] →
          let location := Text.join "/" names
          index.resolve? importer (.relative spec)
            = (location :: extensions.map (fun e => location ++ '.' :: e.toList)
                ++ indexFiles.map fun f => location ++ '/' :: f.toList).find?
                  (index.files.contains ·))
      ∧ ∀ spec', Relation.ReflTransGen Inserts (Text.splitOn '/' spec)
            (Text.splitOn '/' spec') →
          index.resolve? importer (.relative spec')
            = index.resolve? importer (.relative spec) := by
  intro segments
  refine ⟨fun hleaves => ?_, exists_walk_of_not_leavesRoot,
    fun names hwalk hne => ?_, fun spec' hspec' => ?_⟩
  · exact probe?_eq_none_of_location? hleaves.location?_eq
  · intro location
    have hsegments : ∀ s ∈ segments, '/' ∉ s := by
      intro s hs
      rcases List.mem_append.1 hs with hs | hs
      · exact Text.notMem_of_mem_splitOn hs
      · exact Text.notMem_of_mem_splitOn hs
    exact probe?_of_location? hwalk.location?_eq
      (join_ne_nil (hwalk.isName hsegments) hne)
  · show index.probe? _ = index.probe? _
    unfold probe?
    rw [location?_inDir_of_inserts _ hspec']

theorem relative_leads_to_file_of_three_spellings :
    let index := ofList ["src/b.ts".toList]
    index.resolve? "src/a.ts" (.relative "./b") = some "src/b.ts".toList
      ∧ index.resolve? "src/a.ts" (.relative "./x/..//b")
        = some "src/b.ts".toList
      ∧ index.resolve? "src/a.ts" (.relative "../../src/b") = none := by
  intro index
  have hsrc : Walk ["src".toList] ([] ++ ["src".toList]) :=
    Walk.start.down (by decide) (by decide) (by decide)
  have hwalk : Walk ["src".toList, ".".toList, "b".toList]
      ["src".toList, "b".toList] :=
    (hsrc.stay (Or.inr rfl)).down (by decide) (by decide) (by decide)
  have hempty : Inserts ([".".toList] ++ ["b".toList])
      ([".".toList] ++ [] :: ["b".toList]) := .stay (Or.inl rfl)
  have hback : Inserts ([".".toList] ++ [[], "b".toList])
      ([".".toList] ++ "x".toList :: ['.', '.'] :: [[], "b".toList]) :=
    .back (by decide)
  have hleaves : LeavesRoot ["src".toList, "..".toList, "..".toList,
      "src".toList, "b".toList] :=
    ⟨["src".toList, "..".toList], ["src".toList, "b".toList], rfl, hsrc.up⟩
  have hfile : index.resolve? "src/a.ts" (.relative "./b")
      = some "src/b.ts".toList := by
    rw [(relative_leads_where_walk_ends index "src/a.ts" "./b").2.2.1 _ hwalk
      (by decide)]
    decide
  refine ⟨hfile, ?_, ?_⟩
  · rw [(relative_leads_where_walk_ends index "src/a.ts" "./b").2.2.2
      "./x/..//b" ((Relation.ReflTransGen.single hempty).tail hback), hfile]
  · exact (relative_leads_where_walk_ends index "src/a.ts" "../../src/b").1
      hleaves

end FileIndex

end SourceDigest
