/-
Collectors come to an end.

`work` bounds the steps that are left to take: two for a collector to
leave, and four for each directory that is to be listed, which is charged
for those below it too, found or not. Every step takes from it unless the
collector waits (`work_step_lt`), and somebody does not wait as long as
somebody has not stopped (`exists_not_waits`). So no state is stuck
(`exists_schedule_stopped`).

A collector whose fellows are idle never waits. Run alone it stops, and
the schedule that runs one after the other stops them all; what is
collected along it is what one walk collects (`collectBy_eq_collect`).
-/
import Mathlib
import SourceDigest.Proofs.Files.Collectors

namespace SourceDigest

-- ==================================================================== weights

namespace FileNode

/-- Directories below are counted entry by entry. -/
theorem directoriesBelow_eq_sum (es : Entries) :
    directoriesBelow es = (es.map fun e => e.2.directories).sum := by
  induction es with
  | nil => rw [directoriesBelow, List.map_nil, List.sum_nil]
  | cons e es ih => rw [directoriesBelow, ih, List.map_cons, List.sum_cons]

end FileNode

namespace Walk

variable {w : Walk} {dir : Path}

/-- How many directories there are at a path and below it. -/
def weight (w : Walk) (dir : Path) : Nat :=
  1 + FileNode.directoriesBelow (w.listing dir)

/-- How many directories there are at some paths and below them. -/
def weights (w : Walk) (ds : List Path) : Nat := (ds.map w.weight).sum

theorem weights_cons (d : Path) (ds : List Path) :
    w.weights (d :: ds) = w.weight d + w.weights ds := by
  unfold weights
  rw [List.map_cons, List.sum_cons]

theorem weights_append (ds es : List Path) :
    w.weights (ds ++ es) = w.weights ds + w.weights es := by
  unfold weights
  rw [List.map_append, List.sum_append]

/-- A directory weighs more than those that a listing of it gives. -/
theorem weights_dirsIn_lt (hfs : w.fs.WellFormed) (dir : Path) :
    w.weights (w.dirsIn dir) < w.weight dir := by
  have hentry : ∀ e ∈ w.listing dir,
      w.weights (w.dirAt? dir e).toList ≤ e.2.directories := by
    intro e he
    obtain ⟨name, n⟩ := e
    cases n with
    | directory inner =>
        unfold dirAt?
        dsimp only
        split
        · rw [Option.toList_some, weights_cons]
          unfold weight
          rw [listing_join hfs rfl he, FileNode.directories]
          exact Nat.le_refl _
        · exact Nat.zero_le _
    | file _ _ => exact Nat.zero_le _
    | link _ => exact Nat.zero_le _
  unfold weight
  rw [dirsIn_eq, FileNode.directoriesBelow_eq_sum]
  generalize w.listing dir = es at hentry
  induction es with
  | nil => exact Nat.one_pos
  | cons e es ih =>
      have hhead := hentry e (List.mem_cons_self ..)
      have htail := ih fun e he => hentry e (List.mem_cons_of_mem _ he)
      rw [List.filterMap_cons, List.map_cons, List.sum_cons]
      cases hdir : w.dirAt? dir e with
      | none =>
          dsimp only
          omega
      | some d =>
          rw [hdir, Option.toList_some, weights_cons] at hhead
          rw [weights_cons]
          have hnil : w.weights [] = 0 := rfl
          omega

end Walk

-- ======================================================================= work

/-- The most steps that are left to a collector, and to those that list what
it puts into the queue. -/
def Collector.work (w : Walk) : Collector → Nat
  | asking _ => 2
  | listing dir _ => 4 * w.weight dir + 1
  | holding _ found _ => 4 * w.weights found + 4
  | publishing _ found _ => 4 * w.weights found + 3
  | leaving _ => 1
  | stopped => 0

/-- Steps are left to whoever has not stopped. -/
theorem Collector.eq_stopped_of_work_eq_zero {w : Walk} {k : Collector}
    (h : k.work w = 0) : k = .stopped := by
  cases k with
  | stopped => rfl
  | asking _ | listing _ _ | holding _ _ _ | publishing _ _ _ | leaving _ =>
      simp only [Collector.work] at h
      omega

namespace Collection

variable {w : Walk} {n i : Nat} {c : Collection} {completed : List Path}

/-- The most steps that are left. -/
def work (w : Walk) (c : Collection) : Nat :=
  4 * w.weights c.queue + (c.collectors.map (Collector.work w)).sum

/-- What is left to do is told apart at a collector. -/
theorem work_eq {front back : List Collector} {k : Collector}
    (h : c.collectors = front ++ k :: back) :
    c.work w = 4 * w.weights c.queue + ((front.map (Collector.work w)).sum
      + (k.work w + (back.map (Collector.work w)).sum)) := by
  unfold work
  rw [h, List.map_append, List.sum_append, List.map_cons, List.sum_cons]

/-- A step of a collector that does not wait leaves fewer steps. -/
theorem work_step_lt (hfs : w.fs.WellFormed) (batchSize : Nat)
    (hi : ¬ c.Waits i) :
    (c.step w batchSize i).work w < c.work w := by
  have ht := turn_step w batchSize c i
  generalize c.step w batchSize i = c', c.completes? i = dir? at ht
  cases ht with
  | wait hwait => exact absurd hwait hi
  | take hc hq =>
      rw [work_eq hc, work_eq rfl, hq, Walk.weights_cons]
      simp only [Collector.work]
      omega
  | leave hc _ _ | flush hc _ | keep hc _ | stop hc =>
      rw [work_eq hc, work_eq rfl]
      simp only [Collector.work]
      omega
  | @list front back batch dir hc =>
      have hlt := Walk.weights_dirsIn_lt hfs dir
      rw [work_eq hc, work_eq rfl]
      simp only [Collector.work]
      omega
  | publish hc =>
      rw [work_eq hc, work_eq rfl, Walk.weights_append]
      simp only [Collector.work]
      omega

/-- A collector that has not stopped is at work, or leaves, or asks. -/
theorem not_waits_of_ne_asking {k : Collector} (hk : c.collectors[i]? = some k)
    (hask : ∀ batch, k ≠ .asking batch) (hstop : k ≠ .stopped) :
    ¬ c.Waits i := by
  unfold Waits
  rw [hk]
  cases k with
  | asking batch => exact absurd rfl (hask batch)
  | stopped => exact absurd rfl hstop
  | listing _ _ | holding _ _ _ | publishing _ _ _ | leaving _ => exact id

/-- A collector that asks does not wait when none is at work. -/
theorem Sound.not_waits_of_asking (h : Sound w n c completed)
    {batch : List Path}
    (hk : c.collectors[i]? = some (.asking batch)) (hscan : c.scanning = []) :
    ¬ c.Waits i := by
  unfold Waits
  rw [hk]
  intro hwait
  refine hwait.2 (Or.inr ?_)
  rw [h.active, hscan, List.length_nil]

/-- As long as somebody has not stopped, somebody does not wait. -/
theorem Sound.exists_not_waits (h : Sound w n c completed) {k : Collector}
    (hmem : k ∈ c.collectors) (hstop : k ≠ .stopped) : ∃ i, ¬ c.Waits i := by
  by_cases hscan : c.scanning = []
  · obtain ⟨i, hi⟩ := List.mem_iff_getElem?.1 hmem
    by_cases hask : ∃ batch, k = .asking batch
    · obtain ⟨batch, rfl⟩ := hask
      exact ⟨i, h.not_waits_of_asking hi hscan⟩
    · exact ⟨i, not_waits_of_ne_asking hi
        (fun batch he => hask ⟨batch, he⟩) hstop⟩
  · -- somebody is at work, and does not wait for anything
    obtain ⟨d, hd⟩ := List.exists_mem_of_ne_nil _ hscan
    obtain ⟨k', hk', hdir⟩ := List.mem_filterMap.1 hd
    obtain ⟨i, hi⟩ := List.mem_iff_getElem?.1 hk'
    refine ⟨i, not_waits_of_ne_asking hi (fun batch he => ?_) fun he => ?_⟩
    · rw [he] at hdir
      cases hdir
    · rw [he] at hdir
      cases hdir

/-- A run may be taken up where it was left. -/
theorem run_append (w : Walk) (batchSize : Nat) (c : Collection)
    (s t : List Nat) :
    c.run w batchSize (s ++ t) = (c.run w batchSize s).run w batchSize t := by
  unfold run
  rw [List.foldl_append]

/-- No state that collectors reach is stuck: their steps can be so ordered
that all stop. -/
theorem Sound.exists_schedule_stopped (hfs : w.fs.WellFormed)
    (h : Sound w n c completed)
    (batchSize : Nat) :
    ∃ schedule, ∀ k ∈ (c.run w batchSize schedule).collectors,
      k = .stopped := by
  induction hm : c.work w using Nat.strongRecOn generalizing c completed with
  | ind m ih =>
      by_cases hall : ∀ k ∈ c.collectors, k = .stopped
      · exact ⟨[], hall⟩
      · push Not at hall
        obtain ⟨k, hk, hne⟩ := hall
        obtain ⟨i, hi⟩ := h.exists_not_waits hk hne
        have hlt := work_step_lt hfs batchSize hi
        obtain ⟨schedule, hstop⟩ := ih _ (hm ▸ hlt) (h.step hfs batchSize i) rfl
        exact ⟨i :: schedule, hstop⟩

-- ==================================================== one after the other

section

variable {front back : List Collector} {k : Collector}

theorem getElem?_length (hc : c.collectors = front ++ k :: back) :
    c.collectors[front.length]? = some k := by
  rw [hc, List.getElem?_append_right (Nat.le_refl _), Nat.sub_self,
    List.getElem?_cons_zero]

/-- Only the collector that takes a step changes, and not when it has stopped. -/
theorem exists_step_collectors (w : Walk) (batchSize : Nat)
    (hc : c.collectors = front ++ k :: back) :
    ∃ k', (c.step w batchSize front.length).collectors = front ++ k' :: back
      ∧ (k = .stopped → k' = .stopped) := by
  have hset : ∀ k', c.collectors.set front.length k' = front ++ k' :: back := by
    intro k'
    rw [hc, List.set_append_right _ _ (Nat.le_refl _), Nat.sub_self,
      List.set_cons_zero]
  unfold step
  rw [getElem?_length hc]
  cases k with
  | asking batch =>
      dsimp only
      unfold next
      split
      · exact ⟨_, hset _, fun he => by cases he⟩
      · split
        · exact ⟨_, hset _, fun he => by cases he⟩
        · exact ⟨_, hc, fun he => by cases he⟩
  | listing dir batch => exact ⟨_, hset _, fun he => by cases he⟩
  | holding dir found batch =>
      dsimp only
      split
      · exact ⟨_, hset _, fun he => by cases he⟩
      · exact ⟨_, hset _, fun he => by cases he⟩
  | publishing dir found batch => exact ⟨_, hset _, fun he => by cases he⟩
  | leaving batch => exact ⟨_, hset _, fun _ => rfl⟩
  | stopped => exact ⟨_, hc, id⟩

/-- A collector whose fellows are idle waits only when it has stopped. -/
theorem Sound.not_waits_of_idle (h : Sound w n c completed)
    (hc : c.collectors = front ++ k :: back)
    (hidle : ∀ x ∈ front ++ back, x.dir? = none) (hstop : k ≠ .stopped) :
    ¬ c.Waits front.length := by
  have hget := getElem?_length hc
  by_cases hask : ∃ batch, k = .asking batch
  · obtain ⟨batch, rfl⟩ := hask
    refine h.not_waits_of_asking hget ?_
    have hfront : front.filterMap Collector.dir? = [] :=
      List.filterMap_eq_nil_iff.2 fun x hx =>
        hidle x (List.mem_append_left _ hx)
    have hback : back.filterMap Collector.dir? = [] :=
      List.filterMap_eq_nil_iff.2 fun x hx =>
        hidle x (List.mem_append_right _ hx)
    rw [scanning_eq hc, hfront, hback]
    rfl
  · exact not_waits_of_ne_asking hget (fun batch he => hask ⟨batch, he⟩) hstop

/-- A collector whose fellows are idle takes from the work that is left with
each step until it stops. -/
theorem Sound.run_alone (hfs : w.fs.WellFormed) (h : Sound w n c completed)
    (hc : c.collectors = front ++ k :: back)
    (hidle : ∀ x ∈ front ++ back, x.dir? = none) (batchSize steps : Nat) :
    ∃ k', (c.run w batchSize (List.replicate steps front.length)).collectors
      = front ++ k' :: back
      ∧ (k' = .stopped
        ∨ (c.run w batchSize (List.replicate steps front.length)).work w
          + steps ≤ c.work w) := by
  induction steps with
  | zero => exact ⟨k, hc, Or.inr (Nat.le_refl _)⟩
  | succ steps ih =>
      rw [List.replicate_succ', run_append]
      have hsound := h.run hfs batchSize (List.replicate steps front.length)
      generalize c.run w batchSize (List.replicate steps front.length)
        = c' at ih hsound
      obtain ⟨k', hc', hor⟩ := ih
      show ∃ k', (c'.step w batchSize front.length).collectors = _ ∧ (_ ∨
        (c'.step w batchSize front.length).work w + _ ≤ _)
      obtain ⟨k'', hk'', hstay⟩ := exists_step_collectors w batchSize hc'
      by_cases hstop : k' = .stopped
      · exact ⟨k'', hk'', Or.inl (hstay hstop)⟩
      · have hlt := work_step_lt hfs batchSize
          (hsound.not_waits_of_idle hc' hidle hstop)
        have hwork := hor.resolve_left hstop
        exact ⟨k'', hk'', Or.inr (by omega)⟩

end

/-- The work that is left between those that have stopped and those that have
yet to begin. -/
theorem work_between {m r : Nat} {k : Collector}
    (hc : c.collectors
      = List.replicate m .stopped ++ k :: List.replicate r (.asking [])) :
    c.work w = 4 * w.weights c.queue + (k.work w + 2 * r) := by
  rw [work_eq hc, List.map_replicate, List.map_replicate, List.sum_replicate,
    List.sum_replicate, smul_eq_mul, smul_eq_mul,
    show Collector.work w .stopped = 0 from rfl,
    show Collector.work w (.asking []) = 2 from rfl]
  omega

/-- One more collector has its turns behind the others. -/
theorem inTurn_succ (m steps : Nat) :
    inTurn (m + 1) steps = inTurn m steps ++ List.replicate steps m := by
  unfold inTurn
  rw [List.range_succ, List.flatMap_append, List.flatMap_cons, List.flatMap_nil,
    List.append_nil]

/-- After so many turns so many have stopped, and the others have yet to begin;
the first turn is the longest. -/
theorem collectors_run_inTurn (hfs : w.fs.WellFormed) (batchSize : Nat)
    {steps m : Nat} (hsteps : 4 * w.weight w.root + 2 ≤ steps) (hm : m ≤ n) :
    ((start w n).run w batchSize (inTurn m steps)).collectors
        = List.replicate m .stopped ++ List.replicate (n - m) (.asking [])
      ∧ ((start w n).run w batchSize (inTurn m steps)).work w
        ≤ 4 * w.weight w.root + 2 * (n - m) := by
  induction m with
  | zero =>
      refine ⟨rfl, ?_⟩
      show work w (start w n) ≤ _
      unfold work start Walk.weights
      simp [Collector.work, List.sum_replicate]
      omega
  | succ m ih =>
      obtain ⟨hcs, hwork⟩ := ih (by omega)
      have hsound := sound_run_start hfs n batchSize (inTurn m steps)
      rw [inTurn_succ, run_append]
      generalize (start w n).run w batchSize (inTurn m steps)
        = c at hcs hwork hsound
      obtain ⟨r, hr⟩ : ∃ r, n - m = r + 1 := ⟨n - m - 1, by omega⟩
      rw [hr, List.replicate_succ] at hcs
      have hidle : ∀ x ∈ List.replicate m Collector.stopped
          ++ List.replicate r (.asking []), x.dir? = none := by
        intro x hx
        rcases List.mem_append.1 hx with hx | hx
        · rw [(List.mem_replicate.1 hx).2]
          rfl
        · rw [(List.mem_replicate.1 hx).2]
          rfl
      obtain ⟨k', hcs', hor⟩ := hsound.run_alone hfs hcs hidle batchSize steps
      have hsound' := hsound.run hfs batchSize (List.replicate steps m)
      rw [List.length_replicate] at hcs' hor
      generalize c.run w batchSize (List.replicate steps m)
        = c' at hcs' hor hsound'
      have hleft := work_between (w := w) hcs'
      -- after so many steps no more is left than the others have to do
      have hstop : k' = .stopped := by
        rcases hor with hstop | hle
        · exact hstop
        · exact Collector.eq_stopped_of_work_eq_zero (w := w) (by omega)
      subst hstop
      have hqueue :=
        (hsound'.finished (hsound'.left _ (mem_of_eq_append hcs') rfl)).1
      refine ⟨?_, ?_⟩
      · rw [hcs', show n - (m + 1) = r by omega, List.replicate_succ',
          List.append_assoc, List.singleton_append]
      · rw [hleft, hqueue, show w.weights [] = 0 from rfl,
          show Collector.work w .stopped = 0 from rfl]
        omega

end Collection

/-- What collectors find one after the other is what one walk finds. -/
theorem Walk.collectBy_eq_collect {w : Walk} {n : Nat}
    (hfs : w.fs.WellFormed) (hn : 1 ≤ n) (batchSize : Nat) :
    w.collectBy n batchSize = w.collect := by
  have hcs := (Collection.collectors_run_inTurn hfs batchSize
    (Nat.le_refl _) (Nat.le_refl n)).1
  rw [Nat.sub_self, List.replicate_zero, List.append_nil] at hcs
  have hsound := Collection.sound_run_start hfs n batchSize
    (inTurn n (4 * w.weight w.root + 2))
  have hstop : ∀ k ∈ ((Collection.start w n).run w batchSize
      (inTurn n (4 * w.weight w.root + 2))).collectors, k = .stopped := by
    intro k hk
    rw [hcs] at hk
    exact (List.mem_replicate.1 hk).2
  exact hsound.mergeSort_files_of_stopped hfs hn hstop

end SourceDigest
