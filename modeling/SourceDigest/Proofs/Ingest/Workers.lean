/-
Workers that share a queue read each path of it once.

Workers take their steps in any order. `Move` says once what a step does to
the queue and to the worker that takes it, and which record it hands over;
whatever else it does is counting and telling.

A path is in the queue, or with one worker, or its record is among the
results, and `Sound` says so of records: those of the results, those that
workers have yet to hand over, and those of the queued paths are together
the records of all paths. A worker stops only when the queue is empty, so
once all have stopped the results are the records of all paths
(`Sound.results_perm`).

# The end

Each path costs a worker five steps, and stopping costs it one. `stepsLeft`
bounds the steps of a worker by what it is at and what it might still take
from the queue. Its own steps take from that, and no step of another worker
adds to it, so a worker that has had enough turns has stopped, whatever
happened in between (`stopped_of_count`).
-/
import Mathlib
import SourceDigest.Ingest.Workers
import SourceDigest.Proofs.Files.Completion

namespace SourceDigest

namespace Worker

variable {read : Path → FileRecord} {queue queue' : List Path}
  {w w' : Worker} {handed : List FileRecord}

/-- The records that a worker has yet to hand over: one, or none. -/
def owed (read : Path → FileRecord) : Worker → List FileRecord
  | reading path => [read path]
  | delivering r => [r]
  | idle | counting _ _ | telling _ | stopped => []

/-- The most steps that a worker takes unless it is given another path. -/
def phase : Worker → Nat
  | idle => 1
  | reading _ => 5
  | delivering _ => 4
  | counting _ _ => 3
  | telling _ => 2
  | stopped => 0

/-- A worker is through when it has stopped. -/
theorem phase_eq_zero_iff : w.phase = 0 ↔ w = .stopped := by
  cases w with
  | stopped => exact iff_of_true rfl rfl
  | idle | reading _ | delivering _ | counting _ _ | telling _ =>
      refine iff_of_false ?_ ?_
      · simp [phase]
      · simp

/-- What the step of a worker does to it and to the queue, and the records
that it hands over. -/
inductive Move (read : Path → FileRecord) : (queue : List Path) → Worker →
    (queue' : List Path) → Worker → List FileRecord → Prop
  | take {path : Path} {rest : List Path} :
    Move read (path :: rest) .idle rest (.reading path) []
  | stop : Move read [] .idle [] .stopped []
  | read {queue : List Path} {path : Path} :
    Move read queue (.reading path) queue (.delivering (read path)) []
  | deliver {queue : List Path} {r : FileRecord} :
    Move read queue (.delivering r) queue (.counting r.outcome r.path) [r]
  | count {queue : List Path} {outcome : FileOutcome} {path : Path}
      {p : Progress} :
    Move read queue (.counting outcome path) queue (.telling p) []
  | tell {queue : List Path} {p : Progress} :
    Move read queue (.telling p) queue .idle []

namespace Move

/-- A record goes from the queue to the worker and from there to the
results. -/
theorem count_owed (h : Move read queue w queue' w' handed) (r : FileRecord) :
    (handed ++ (w'.owed read ++ queue'.map read)).count r
      = (w.owed read ++ queue.map read).count r := by
  cases h with
  | take | stop | read | deliver | count | tell => rfl

/-- A step is one of those that are left. -/
theorem phase_add_one (h : Move read queue w queue' w' handed) :
    5 * queue'.length + w'.phase + 1 = 5 * queue.length + w.phase := by
  cases h with
  | take =>
      rw [List.length_cons]
      show 5 * _ + 5 + 1 = 5 * (_ + 1) + 1
      omega
  | stop | read | deliver | count | tell => rfl

/-- No move puts anything into the queue. -/
theorem queue_length_le (h : Move read queue w queue' w' handed) :
    queue'.length ≤ queue.length := by
  cases h with
  | take => exact Nat.le_succ _
  | stop | read | deliver | count | tell => exact Nat.le_refl _

/-- Whoever stops has found nothing in the queue. -/
theorem queue_eq_nil_of_stopped (h : Move read queue w queue' .stopped handed) :
    queue' = [] := by
  cases h with
  | stop => rfl

end Move

end Worker

namespace Ingestion

variable {read : Path → FileRecord} {paths : List Path} {n i j : Nat}
  {g : Ingestion}

/-- The records that are there, and those that are to come. -/
def owed (read : Path → FileRecord) (g : Ingestion) : List FileRecord :=
  g.results
    ++ (g.workers.flatMap (Worker.owed read) ++ g.queue.map read)

/-- Whoever takes a step makes a move, unless there is nobody or it has
stopped. -/
theorem step_cases (read : Path → FileRecord) (g : Ingestion) (i : Nat) :
    ((∀ w, g.workers[i]? = some w → w = .stopped) ∧ g.step read i = g)
      ∨ ∃ w w' handed, g.workers[i]? = some w
        ∧ Worker.Move read g.queue w (g.step read i).queue w' handed
        ∧ (g.step read i).workers = g.workers.set i w'
        ∧ (g.step read i).results = g.results ++ handed := by
  unfold step
  cases hw : g.workers[i]? with
  | none => exact Or.inl ⟨fun _ h => (by cases h), rfl⟩
  | some w =>
      cases w with
      | idle =>
          right
          cases hq : g.queue with
          | nil =>
              refine ⟨.idle, .stopped, [], rfl, ?_, rfl, (List.append_nil _).symm⟩
              show Worker.Move read [] .idle g.queue .stopped []
              rw [hq]
              exact .stop
          | cons path rest =>
              exact ⟨_, _, [], rfl, .take, rfl, (List.append_nil _).symm⟩
      | reading path =>
          exact Or.inr ⟨_, _, [], rfl, .read, rfl, (List.append_nil _).symm⟩
      | delivering r => exact Or.inr ⟨_, _, [r], rfl, .deliver, rfl, rfl⟩
      | counting outcome path =>
          exact Or.inr ⟨_, _, [], rfl, .count, rfl, (List.append_nil _).symm⟩
      | telling p =>
          exact Or.inr ⟨_, _, [], rfl, .tell, rfl, (List.append_nil _).symm⟩
      | stopped =>
          exact Or.inl ⟨fun _ h => (Option.some.inj h).symm, rfl⟩

-- ================================================================= invariants

/-- What holds of an ingestion of some paths by so many workers. -/
structure Sound (read : Path → FileRecord) (paths : List Path) (n : Nat)
    (g : Ingestion) : Prop where
  length : g.workers.length = n
  /-- Every path is queued, with a worker, or among the results, once. -/
  records : (g.owed read).Perm (paths.map read)
  /-- Whoever has stopped has found nothing in the queue. -/
  stopped : .stopped ∈ g.workers → g.queue = []

/-- At the start everything is in the queue. -/
theorem sound_start (read : Path → FileRecord) (paths : List Path)
    (tracker : Tracker) (n : Nat) : Sound read paths n (start paths tracker n) where
  length := List.length_replicate
  records := by
    have hnone : (List.replicate n Worker.idle).flatMap (Worker.owed read)
        = [] := by
      rw [List.flatMap_eq_nil_iff]
      intro w hw
      rw [(List.mem_replicate.1 hw).2]
      rfl
    unfold owed start
    rw [hnone, List.nil_append, List.nil_append]
  stopped := by
    intro h
    cases (List.mem_replicate.1 h).2

namespace Sound

/-- A move keeps every record once among the results and what is to come. -/
private theorem records_step (h : Sound read paths n g) (i : Nat) :
    ((g.step read i).owed read).Perm (paths.map read) := by
  obtain ⟨-, heq⟩ | ⟨w, w', handed, hw, hmove, hworkers, hresults⟩ :=
    step_cases read g i
  · rw [heq]
    exact h.records
  · obtain ⟨front, back, hfront, hset⟩ := Collection.exists_set_eq hw
    refine List.Perm.trans (List.perm_iff_count.2 fun r => ?_) h.records
    have hcount := hmove.count_owed r
    unfold owed
    rw [hworkers, hresults, hset, hfront]
    simp only [List.flatMap_append, List.flatMap_cons, List.count_append]
      at hcount ⊢
    omega

/-- A step keeps every path in one place. -/
theorem step (h : Sound read paths n g) (i : Nat) :
    Sound read paths n (g.step read i) where
  length := by
    obtain ⟨-, heq⟩ | ⟨w, w', handed, -, -, hworkers, -⟩ := step_cases read g i
    · rw [heq]
      exact h.length
    · rw [hworkers, List.length_set]
      exact h.length
  records := h.records_step i
  stopped := by
    intro hstop
    obtain ⟨-, heq⟩ | ⟨w, w', handed, -, hmove, hworkers, -⟩ :=
      step_cases read g i
    · rw [heq] at hstop ⊢
      exact h.stopped hstop
    · rw [hworkers] at hstop
      rcases List.mem_or_eq_of_mem_set hstop with hold | rfl
      · have hempty := hmove.queue_length_le
        rw [h.stopped hold, List.length_nil] at hempty
        exact List.length_eq_zero_iff.1 (Nat.le_zero.1 hempty)
      · exact hmove.queue_eq_nil_of_stopped

/-- Whatever the order of the steps. -/
theorem run (h : Sound read paths n g) (schedule : List Nat) :
    Sound read paths n (g.run read schedule) := by
  induction schedule generalizing g with
  | nil => exact h
  | cons i schedule ih => exact ih (h.step i)

/-- When all have stopped, the results are the records of all paths. -/
theorem results_perm (h : Sound read paths n g) (hn : 1 ≤ n)
    (hstop : ∀ w ∈ g.workers, w = .stopped) :
    g.results.Perm (paths.map read) := by
  have hnone : g.workers.flatMap (Worker.owed read) = [] := by
    rw [List.flatMap_eq_nil_iff]
    intro w hw
    rw [hstop w hw]
    rfl
  have hne : g.workers ≠ [] := by
    rw [← List.length_pos_iff, h.length]
    exact hn
  obtain ⟨w, hw⟩ := List.exists_mem_of_ne_nil _ hne
  have hqueue := h.stopped (hstop w hw ▸ hw)
  have hrecords := h.records
  unfold owed at hrecords
  rwa [hnone, hqueue, List.nil_append, List.map_nil, List.append_nil]
    at hrecords

end Sound

-- ==================================================================== the end

/-- The most steps that are left to a worker. -/
def stepsLeft (g : Ingestion) (i : Nat) : Nat :=
  5 * g.queue.length + (g.workers[i]?.map Worker.phase).getD 0

namespace Sound

/-- Nothing is left to whoever has stopped. -/
theorem stepsLeft_of_stopped (h : Sound read paths n g) (hi : i < n)
    (hstop : ∀ w, g.workers[i]? = some w → w = .stopped) :
    g.stepsLeft i = 0 := by
  rw [← h.length] at hi
  have hw := List.getElem?_eq_getElem hi
  rw [hstop _ hw] at hw
  have hmem := List.mem_of_getElem? hw
  unfold stepsLeft
  rw [h.stopped hmem, hw]
  rfl

/-- A step of a worker is one of those left to it, and takes none from
others. -/
theorem stepsLeft_step_le (h : Sound read paths n g) (hi : i < n) (j : Nat) :
    (g.step read j).stepsLeft i ≤ g.stepsLeft i - if j = i then 1 else 0 := by
  obtain ⟨hstop, heq⟩ | ⟨w, w', handed, hw, hmove, hworkers, -⟩ :=
    step_cases read g j
  · rw [heq]
    split
    · rename_i hij
      subst hij
      rw [h.stepsLeft_of_stopped hi hstop]
    · exact Nat.le_refl _
  · unfold stepsLeft
    rw [hworkers]
    split
    · rename_i hij
      subst hij
      have hphase := hmove.phase_add_one
      rw [List.getElem?_set_self (List.getElem?_eq_some_iff.1 hw).1, hw,
        Option.map_some, Option.map_some, Option.getD_some, Option.getD_some]
      omega
    · rename_i hij
      have hqueue := hmove.queue_length_le
      rw [List.getElem?_set_ne hij]
      omega

/-- Every turn of a worker is one of the steps left to it. -/
theorem stepsLeft_run_le (h : Sound read paths n g) (hi : i < n)
    (schedule : List Nat) :
    (g.run read schedule).stepsLeft i ≤ g.stepsLeft i - schedule.count i := by
  induction schedule generalizing g with
  | nil => exact Nat.le_refl _
  | cons j schedule ih =>
      have hstep := h.stepsLeft_step_le hi j
      have hrest := ih (h.step j)
      show ((g.step read j).run read schedule).stepsLeft i ≤ _
      rw [List.count_cons]
      simp only [beq_iff_eq]
      omega

end Sound

/-- Workers that have had five turns for each path and one more have stopped,
in whatever order they had them. -/
theorem stopped_of_count (read : Path → FileRecord) (paths : List Path)
    (tracker : Tracker) (n : Nat) {schedule : List Nat}
    (hcount : ∀ i < n, 5 * paths.length + 1 ≤ schedule.count i) :
    ∀ w ∈ ((start paths tracker n).run read schedule).workers,
      w = .stopped := by
  intro w hw
  have hsound := (sound_start read paths tracker n).run schedule
  obtain ⟨i, hi⟩ := List.mem_iff_getElem?.1 hw
  have hlt : i < n := by
    rw [← hsound.length]
    exact (List.getElem?_eq_some_iff.1 hi).1
  have hleft := (sound_start read paths tracker n).stepsLeft_run_le hlt schedule
  have hstart : (start paths tracker n).stepsLeft i = 5 * paths.length + 1 := by
    unfold stepsLeft start
    rw [List.getElem?_replicate, if_pos hlt]
    rfl
  rw [hstart] at hleft
  have henough := hcount i hlt
  unfold stepsLeft at hleft
  rw [hi, Option.map_some, Option.getD_some] at hleft
  exact Worker.phase_eq_zero_iff.1 (by omega)

/-- In turn everybody has so many turns. -/
theorem count_inTurn (count steps i : Nat) :
    (inTurn count steps).count i = if i < count then steps else 0 := by
  induction count with
  | zero => rfl
  | succ m ih =>
      rw [Collection.inTurn_succ, List.count_append, ih, List.count_replicate]
      simp only [beq_iff_eq]
      by_cases him : i < m
      · rw [if_pos him, if_neg (ne_of_gt him), if_pos (Nat.lt_succ_of_lt him),
          Nat.add_zero]
      · by_cases heq : m = i
        · rw [if_neg him, if_pos heq, if_pos (heq ▸ Nat.lt_succ_self m),
            Nat.zero_add]
        · rw [if_neg him, if_neg heq, if_neg (by omega)]

end Ingestion

end SourceDigest
