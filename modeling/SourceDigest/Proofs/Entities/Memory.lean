/-
What a finder that remembers gives, over a whole run of queries and
clearings.

`History` reads a run without a finder: the queries since the memory was
cleared last, and those queries of the run that were the first for their
path when they came. `Remembers` ties a finder to it. A path is in the
cache when it has been asked for since, and the entry is what its first
query found; the labeler has been asked for the first queries and no
others. Every call keeps this (`Remembers.call`), a query because a path
that is there is not looked for again, clearing because it empties both
sides. What a query is answered and how many paths are kept can then be
read off the history.

How long labeling takes is part of a query, so an answer that the patterns
gave because labeling took too long is kept like any other.
-/
import Mathlib
import SourceDigest.Entities.Learned
import SourceDigest.Proofs.Table

namespace SourceDigest

namespace LearnedFinder

/-- A text whose entities are asked for, and the nanoseconds that labeling it
takes if it comes to that. -/
structure Query where
  elapsed : Nat
  path : Path
  content : Text
deriving DecidableEq

/-- What a finder is called for. -/
inductive Call where
  | find (q : Query)
  | clear

/-- The answer to a query, and the finder after that. -/
def answer (f : LearnedFinder) (q : Query) : List Entity × LearnedFinder :=
  f.find q.elapsed q.path q.content

/-- The answer to a query of which nothing is remembered, and how often the
labeler is asked for it. -/
def fresh (f : LearnedFinder) (q : Query) : List Entity × Nat :=
  f.findFresh q.elapsed q.path q.content

def call (f : LearnedFinder) : Call → LearnedFinder
  | .find q => (f.answer q).2
  | .clear => f.clear

/-- The finder after some calls. -/
def after (f : LearnedFinder) (calls : List Call) : LearnedFinder :=
  calls.foldl call f

-- =================================================================== history

/-- What a run has asked for. -/
structure History where
  /-- The queries since the last clearing, in order. -/
  sinceClear : List Query := []
  /-- The queries of the whole run that were the first for their path since
  the clearing before them. -/
  firsts : List Query := []

namespace History

/-- Membership of a path in a list is decided by comparing texts. -/
local instance : LawfulBEq Path := inferInstanceAs (LawfulBEq (List Char))

/-- The paths asked for since the last clearing. -/
def paths (h : History) : List Path := h.sinceClear.map (·.path)

def add (h : History) : Call → History
  | .find q => {
      sinceClear := h.sinceClear ++ [q]
      firsts := if q.path ∈ h.paths then h.firsts else h.firsts ++ [q] }
  | .clear => { h with sinceClear := [] }

/-- The history of a run. -/
def of (calls : List Call) : History := calls.foldl add {}

/-- The first query for a path since the last clearing. -/
def first? (h : History) (path : Path) : Option Query :=
  h.sinceClear.find? (·.path = path)

/-- The query that the answer to a query is that of: the first for its path,
which may be itself. -/
def firstFor (h : History) (q : Query) : Query := (h.first? q.path).getD q

variable {h : History} {q : Query} {path : Path}

theorem first?_eq_none_iff : h.first? path = none ↔ path ∉ h.paths := by
  unfold first? paths
  simp only [List.find?_eq_none, List.mem_map, decide_eq_true_eq, not_exists,
    not_and]

/-- A query is the first for its path, or another one has been. -/
theorem first?_add_find :
    (h.add (.find q)).first? path
      = (h.first? path).or (if q.path = path then some q else none) := by
  unfold first? add
  rw [List.find?_append]
  by_cases hq : q.path = path <;> simp [hq]

end History

-- ==================================================================== memory

variable {f start : LearnedFinder} {h : History} {q : Query} {path : Path}

/-- A finder remembers what has been found since the last clearing. -/
structure Remembers (start : LearnedFinder) (h : History)
    (f : LearnedFinder) : Prop where
  labeler : f.labeler = start.labeler
  timeBudget : f.timeBudget = start.timeBudget
  cacheEnabled : f.cacheEnabled = true
  ordered : f.cache.Ordered
  entries : ∀ path,
    f.cache.get? path = (h.first? path).map fun q => (start.fresh q).1
  asked : f.asked = (h.firsts.map fun q => (start.fresh q).2).sum

/-- What is found for a query does not hang on what is remembered. -/
theorem fresh_congr (hlabeler : f.labeler = start.labeler)
    (hbudget : f.timeBudget = start.timeBudget) (q : Query) :
    f.fresh q = start.fresh q := by
  unfold fresh findFresh
  rw [hlabeler, hbudget]

/-- What is remembered is not looked for again. -/
theorem answer_of_get?_eq_some (hcache : f.cacheEnabled = true)
    {es : List Entity} (hget : f.cache.get? q.path = some es) :
    f.answer q = (es, f) := by
  unfold answer find
  rw [if_pos hcache, hget]

/-- What is not remembered is found and kept. -/
theorem answer_of_get?_eq_none (hcache : f.cacheEnabled = true)
    (hget : f.cache.get? q.path = none) :
    f.answer q = ((f.fresh q).1,
      { f with
        asked := f.asked + (f.fresh q).2
        cache := f.cache.put q.path (f.fresh q).1 }) := by
  unfold answer find
  rw [if_pos hcache, hget]
  dsimp only
  rw [if_pos hcache]
  rfl

/-- Without a cache everything is found afresh. -/
theorem answer_of_not_cacheEnabled (hcache : f.cacheEnabled = false)
    (q : Query) :
    f.answer q = ((f.fresh q).1,
      { f with asked := f.asked + (f.fresh q).2 }) := by
  unfold answer find
  rw [hcache]
  rfl

theorem remembers_start (labeler : Labeler) (s : EntitySettings)
    (hcache : s.cache = true) :
    Remembers (ofLabeler labeler s) {} (ofLabeler labeler s) where
  labeler := rfl
  timeBudget := rfl
  cacheEnabled := hcache
  ordered := Table.ordered_nil
  entries := fun _ => rfl
  asked := rfl

namespace Remembers

/-- An answer is the one to the first query of its path. -/
theorem answer_fst (hf : Remembers start h f) (q : Query) :
    (f.answer q).1 = (start.fresh (h.firstFor q)).1 := by
  have hentry := hf.entries q.path
  unfold History.firstFor
  cases hfirst : h.first? q.path with
  | none =>
      rw [hfirst] at hentry
      rw [answer_of_get?_eq_none hf.cacheEnabled hentry]
      exact congrArg Prod.fst (fresh_congr hf.labeler hf.timeBudget q)
  | some q' =>
      rw [hfirst] at hentry
      rw [answer_of_get?_eq_some hf.cacheEnabled hentry]
      rfl

/-- A query keeps the first one for every path. -/
theorem answer_snd (hf : Remembers start h f) (q : Query) :
    Remembers start (h.add (.find q)) (f.answer q).2 := by
  have hentry := hf.entries q.path
  have hfresh := fresh_congr hf.labeler hf.timeBudget q
  by_cases hseen : q.path ∈ h.paths
  · have hfirst : ∃ q', h.first? q.path = some q' := by
      rw [← Option.ne_none_iff_exists']
      exact fun hnone => History.first?_eq_none_iff.1 hnone hseen
    obtain ⟨q', hq'⟩ := hfirst
    rw [hq'] at hentry
    rw [answer_of_get?_eq_some hf.cacheEnabled hentry]
    refine { hf with entries := fun path => ?_, asked := ?_ }
    · rw [hf.entries, History.first?_add_find]
      split
      · rename_i hpath
        rw [← hpath, hq']
        rfl
      · rw [Option.or_none]
    · rw [hf.asked]
      simp only [History.add, if_pos hseen]
  · have hnone := History.first?_eq_none_iff.2 hseen
    rw [hnone] at hentry
    rw [answer_of_get?_eq_none hf.cacheEnabled hentry, hfresh]
    refine { hf with
      ordered := hf.ordered.put _ _
      entries := fun path => ?_
      asked := ?_ }
    · dsimp only
      unfold Table.put
      rw [hf.ordered.get?_alter, History.first?_add_find, hf.entries]
      by_cases hpath : q.path = path
      · subst hpath
        rw [hnone, if_pos rfl, if_pos rfl]
        rfl
      · rw [if_neg (Ne.symm hpath), if_neg hpath, Option.or_none]
    · simp only [History.add, if_neg hseen, List.map_append, List.sum_append,
        List.map_singleton, List.sum_singleton, hf.asked]

theorem clear (hf : Remembers start h f) :
    Remembers start (h.add .clear) f.clear :=
  { hf with ordered := Table.ordered_nil, entries := fun _ => rfl }

theorem call (hf : Remembers start h f) (c : Call) :
    Remembers start (h.add c) (f.call c) := by
  cases c with
  | find q => exact hf.answer_snd q
  | clear => exact hf.clear

/-- Whatever the calls. -/
theorem after (hf : Remembers start h f) (calls : List Call) :
    Remembers start (calls.foldl History.add h) (f.after calls) := by
  induction calls generalizing f h with
  | nil => exact hf
  | cons c calls ih => exact ih (hf.call c)

/-- There is one entry for each path. -/
theorem length_cache (hf : Remembers start h f) :
    f.cache.length = h.paths.dedup.length := by
  have hkeys : f.cache.keys.Perm h.paths.dedup := by
    refine (List.perm_ext_iff_of_nodup hf.ordered.nodup_keys
      h.paths.nodup_dedup).2 fun path => ?_
    rw [List.mem_dedup, ← Table.isSome_get?_iff, hf.entries,
      Option.isSome_map, ← not_iff_not, ← History.first?_eq_none_iff,
      Option.not_isSome_iff_eq_none]
  rw [← hkeys.length_eq]
  exact (List.length_map _).symm

end Remembers

/-- A finder without a cache stays as it is, but for how often the labeler has
been asked. -/
structure Forgets (start f : LearnedFinder) : Prop where
  labeler : f.labeler = start.labeler
  timeBudget : f.timeBudget = start.timeBudget
  cacheEnabled : f.cacheEnabled = false
  cache : f.cache = []

theorem Forgets.after (hf : Forgets start f) (calls : List Call) :
    Forgets start (f.after calls) := by
  induction calls generalizing f with
  | nil => exact hf
  | cons c calls ih =>
      refine ih ?_
      cases c with
      | clear => exact { hf with cache := rfl }
      | find q =>
          show Forgets start (f.answer q).2
          rw [answer_of_not_cacheEnabled hf.cacheEnabled]
          exact { hf with }

-- ================================================================= the whole

/-- Whatever a finder has been called for:

- With a cache it answers a query as the first one for the same path since
  the last clearing was answered, with what was found then. The labeler is
  asked only for those first queries, and there is one entry for each path
  asked for since.
- Without a cache every query is answered by itself, and nothing is kept. -/
theorem answers_are_those_of_first_queries (labeler : Labeler)
    (s : EntitySettings) (calls : List Call) :
    let start := ofLabeler labeler s
    let f := start.after calls
    let h := History.of calls
    (s.cache = true →
      (∀ q, (f.answer q).1 = (start.fresh (h.firstFor q)).1
        ∧ (f.answer q).2.asked
          = f.asked + if q.path ∈ h.paths then 0 else (start.fresh q).2)
      ∧ f.asked = (h.firsts.map fun q => (start.fresh q).2).sum
      ∧ f.cache.length = h.paths.dedup.length)
    ∧ (s.cache = false →
      (∀ q, (f.answer q).1 = (start.fresh q).1) ∧ f.cache.length = 0) := by
  intro start f h
  constructor
  · intro hcache
    have hf : Remembers start h f :=
      (remembers_start labeler s hcache).after calls
    refine ⟨fun q => ⟨hf.answer_fst q, ?_⟩, hf.asked, hf.length_cache⟩
    rw [(hf.answer_snd q).asked, hf.asked]
    unfold History.add
    by_cases hseen : q.path ∈ h.paths
    · simp only [if_pos hseen, Nat.add_zero]
    · simp only [if_neg hseen, List.map_append, List.sum_append,
        List.map_singleton, List.sum_singleton]
  · intro hcache
    have hf : Forgets start f :=
      Forgets.after ⟨rfl, rfl, hcache, rfl⟩ calls
    refine ⟨fun q => ?_, by rw [hf.cache, List.length_nil]⟩
    rw [answer_of_not_cacheEnabled hf.cacheEnabled]
    exact congrArg Prod.fst (fresh_congr hf.labeler hf.timeBudget q)

/-- A labeler to which every word is a class. -/
def allClasses : Labeler := fun ws => .ok (ws.map fun _ => "B-CLASS")

/-- Two paths, one of them again after clearing. -/
def clearedOnce : List Call := [
  .find ⟨0, "a.rs", "A"⟩, .find ⟨0, "b.rs", "B"⟩, .clear,
  .find ⟨0, "a.rs", "C"⟩]

/-- The text that came first after clearing answers for the one that comes
then. -/
theorem answers_after_clearing :
    ((((ofLabeler allClasses {}).after clearedOnce).answer
        ⟨0, "a.rs", "D"⟩).1 = [⟨"C", .type⟩]
      ∧ ((ofLabeler allClasses {}).after clearedOnce).asked = 3
      ∧ ((ofLabeler allClasses {}).after clearedOnce).cache.length = 1)
    ∧ (((ofLabeler allClasses { cache := false }).after clearedOnce).answer
      ⟨0, "a.rs", "D"⟩).1 = [⟨"D", .type⟩] := by
  obtain ⟨hanswer, hasked, hlength⟩ :=
    (answers_are_those_of_first_queries allClasses {} clearedOnce).1 rfl
  have hfresh := ((answers_are_those_of_first_queries allClasses
    { cache := false } clearedOnce).2 rfl).1 ⟨0, "a.rs", "D"⟩
  refine ⟨⟨(hanswer ⟨0, "a.rs", "D"⟩).1.trans ?_, hasked.trans ?_,
    hlength.trans ?_⟩, hfresh.trans ?_⟩
  · decide
  · decide
  · decide
  · decide

end LearnedFinder

end SourceDigest
