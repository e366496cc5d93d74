/-
What a registry of jobs has after any run.

A tracker that was handed out can be called in any order by whoever holds
it, also after its job has been dropped or its name given to another. So
a run is kept as a `History`: a life for every tracker ever made, with the
calls on it, and the place in that order of the tracker under each name.
`Kept` says that a registry is what its history tells; every operation
preserves it (`Kept.apply`), whatever the time it is done at.

A tracker is complete once it has been finished, for good, and its phase is
the one that the last call with a say in it went to. Neither follows from
the other. Expiry asks for the first: a job is dropped when its tracker has
ever been finished and its age is reached, and only then
(`get?_expire`). It goes by the phase exactly when every tracker that has a
name is in step, finished when and only when its phase is that of the end
(`expiresByPhase_iff`). One ingestion keeps a tracker in step from its
first call to its last (`Life.inStep_of_one_ingestion`); a second one does
not.
-/
import Mathlib
import SourceDigest.Ingest.Progress
import SourceDigest.Proofs.Table

namespace SourceDigest

namespace Tracker

/-- What can be done to a tracker. -/
inductive Call where
  | setPhase (phase : Phase)
  | start (total : Nat)
  | record (outcome : FileOutcome) (path : Path)
  | finish
deriving DecidableEq

namespace Call

def run : Call → Tracker → Tracker
  | setPhase phase => Tracker.setPhase phase
  | start total => Tracker.start total
  | record outcome path => Tracker.record outcome path
  | finish => Tracker.finish

/-- The phase that a call goes to. -/
def phase? : Call → Option Phase
  | setPhase phase => some phase
  | start _ => some .processing
  | record _ _ => none
  | finish => some .done

end Call

/-- A fresh tracker after some calls. -/
def afterCalls (listened : Bool) (calls : List Call) : Tracker :=
  calls.foldl (fun t c => c.run t) { listened }

variable {t : Tracker} {listened : Bool} {calls : List Call} {c : Call}

theorem progress_notify : t.notify.progress = t.progress := by
  unfold notify
  split <;> rfl

/-- A call that is no end leaves completeness alone. -/
theorem isComplete_run (c : Call) (t : Tracker) :
    (c.run t).progress.isComplete
      = (t.progress.isComplete || decide (c = .finish)) := by
  cases c with
  | setPhase _ | start _ => simp [Call.run, setPhase, start, Progress.setPhase,
      Progress.start]
  | record outcome _ =>
      cases outcome <;> simp [Call.run, record, progress_notify, Progress.record]
  | finish => simp [Call.run, finish, progress_notify, Progress.finish]

/-- A call that sets a phase sets it whatever came before. -/
theorem phase_run (c : Call) (t : Tracker) :
    (c.run t).progress.phase = c.phase?.getD t.progress.phase := by
  cases c with
  | setPhase _ | start _ => rfl
  | record outcome _ =>
      cases outcome <;> simp [Call.run, record, progress_notify, Progress.record,
        Call.phase?]
  | finish => simp [Call.run, finish, progress_notify, Progress.finish, Call.phase?]

theorem afterCalls_append_singleton :
    afterCalls listened (calls ++ [c]) = c.run (afterCalls listened calls) := by
  unfold afterCalls
  rw [List.foldl_append]
  rfl

/-- A tracker is complete once it has been finished. -/
theorem isComplete_afterCalls (listened : Bool) (calls : List Call) :
    (afterCalls listened calls).progress.isComplete = decide (.finish ∈ calls) := by
  induction calls using List.reverseRecOn with
  | nil => rfl
  | append_singleton calls c ih =>
      rw [afterCalls_append_singleton, isComplete_run, ih]
      simp [eq_comm]

/-- Its phase is the one that was gone to last. -/
theorem phase_afterCalls (listened : Bool) (calls : List Call) :
    (afterCalls listened calls).progress.phase
      = (calls.filterMap Call.phase?).getLastD .idle := by
  induction calls using List.reverseRecOn with
  | nil => rfl
  | append_singleton calls c ih =>
      rw [afterCalls_append_singleton, phase_run, ih, List.filterMap_append]
      cases hphase : c.phase? <;> simp [hphase]

end Tracker

namespace Registry

/-- What became of a tracker that was handed out. -/
structure Life where
  created : Nat
  listened : Bool
  calls : List Tracker.Call := []

namespace Life

variable {l : Life}

/-- The job with the tracker of a life. -/
def job (l : Life) : Job := ⟨.afterCalls l.listened l.calls, l.created⟩

def call (l : Life) (c : Tracker.Call) : Life := { l with calls := l.calls ++ [c] }

/-- Whether the tracker has been finished and has reached an age. -/
def isOver (l : Life) (now maxAge : Nat) : Bool :=
  .finish ∈ l.calls && maxAge ≤ now - l.created

/-- The phase that was gone to last. -/
def phase (l : Life) : Phase := (l.calls.filterMap Tracker.Call.phase?).getLastD .idle

/-- The tracker has been finished when its phase says so, and only then. -/
def InStep (l : Life) : Prop := .finish ∈ l.calls ↔ l.phase = .done

/-- A call of a job reaches its tracker. -/
theorem job_call (l : Life) (c : Tracker.Call) :
    (l.call c).job = { l.job with tracker := c.run l.job.tracker } := by
  unfold job call
  rw [Tracker.afterCalls_append_singleton]

end Life

-- ===================================================================== runs

/-- What is done to a registry and to the trackers it handed out. -/
inductive Op where
  | create (name : Text) (listened : Bool)
  | get (name : Text)
  | remove (name : Text)
  | expire (maxAge : Nat)
  /-- A call on the tracker that was made at a place in the order. -/
  | call (place : Nat) (c : Tracker.Call)

/-- The registry after an operation at a time. -/
def apply (r : Registry) (now : Nat) : Op → Registry
  | .create name listened => (r.create name now { listened }).2
  | .get _ => r
  | .remove name => (r.remove name).2
  | .expire maxAge => (r.expire now maxAge).2
  | .call place c => r.update place c.run

/-- A new registry after operations, each with its time. -/
def after (ops : List (Nat × Op)) : Registry :=
  ops.foldl (fun r op => r.apply op.1 op.2) {}

/-- What has been done with the trackers, and which has which name. -/
structure History where
  lives : List Life := []
  under : Text → Option Nat := fun _ => none

namespace History

def step (h : History) (now : Nat) : Op → History
  | .create name listened =>
    { lives := h.lives ++ [{ created := now, listened }]
      under := Function.update h.under name (some h.lives.length) }
  | .get _ => h
  | .remove name => { h with under := Function.update h.under name none }
  | .expire maxAge =>
    { h with under := fun name => (h.under name).filter fun place =>
        !h.lives[place]?.any (·.isOver now maxAge) }
  | .call place c => { h with lives := h.lives.modify place (·.call c) }

def after (ops : List (Nat × Op)) : History :=
  ops.foldl (fun h op => h.step op.1 op.2) {}

end History

-- ================================================================ what is kept

variable {r : Registry} {h : History} {name : Text} {place : Nat} {l : Life}

/-- A registry is what its history tells. -/
structure Kept (r : Registry) (h : History) : Prop where
  made : r.made = h.lives.map Life.job
  ordered : r.names.Ordered
  get : ∀ name, r.get? name = h.under name
  placed : ∀ name place, h.under name = some place → place < h.lives.length

/-- Changing the tracker of a job is a call on its life. -/
theorem modify_job (lives : List Life) (place : Nat) (c : Tracker.Call) :
    (lives.map Life.job).modify place
        (fun j => { j with tracker := c.run j.tracker })
      = (lives.modify place (·.call c)).map Life.job := by
  induction lives generalizing place with
  | nil => simp
  | cons l lives ih =>
      cases place with
      | zero => simp [Life.job_call]
      | succ place => simp [ih]

namespace Kept

/-- A job is where the history has its life. -/
theorem job? (hk : Kept r h) (place : Nat) :
    r.job? place = h.lives[place]?.map Life.job := by
  unfold Registry.job?
  rw [hk.made, List.getElem?_map]

/-- Expiry asks whether the tracker has ever been finished. -/
theorem isExpired (hk : Kept r h) (now maxAge place : Nat) :
    r.isExpired now maxAge place
      = h.lives[place]?.any (·.isOver now maxAge) := by
  unfold Registry.isExpired
  rw [hk.job?]
  cases h.lives[place]? with
  | none => rfl
  | some l =>
      exact congrArg (· && decide (maxAge ≤ now - l.created))
        (Tracker.isComplete_afterCalls l.listened l.calls)

/-- A name is gone when the life of its job is over. -/
theorem get?_expire (hk : Kept r h) (now maxAge : Nat) (name : Text) :
    (r.expire now maxAge).2.get? name
      = (r.get? name).filter fun place =>
        !h.lives[place]?.any (·.isOver now maxAge) := by
  show Table.get? (r.names.filter _) name = _
  rw [hk.ordered.get?_filter]
  simp only [hk.isExpired]
  rfl

/-- A name that is removed is gone, and no other. -/
theorem get?_remove (hk : Kept r h) (name k : Text) :
    (r.remove name).2.get? k = if k = name then none else r.get? k := by
  show Table.get? (r.names.filter _) k = _
  rw [hk.ordered.get?_filter]
  show Option.filter (fun _ => k != name) (r.get? k) = _
  by_cases hname : k = name
  · rw [if_pos hname, hname, bne_self_eq_false]
    cases r.get? name <;> rfl
  · rw [if_neg hname, bne_iff_ne.2 hname]
    cases r.get? k <;> rfl

/-- A name that is created stands for the newest job. -/
theorem get?_create (hk : Kept r h) (name : Text) (now : Nat) (t : Tracker)
    (k : Text) :
    (r.create name now t).2.get? k
      = if k = name then some r.made.length else r.get? k :=
  hk.ordered.get?_alter ..

/-- Every operation is what its history tells of it. -/
theorem apply (hk : Kept r h) (now : Nat) (op : Op) :
    Kept (r.apply now op) (h.step now op) := by
  cases op with
  | create name listened =>
      have hlength : r.made.length = h.lives.length := by
        rw [hk.made, List.length_map]
      refine ⟨?_, hk.ordered.put .., fun k => ?_, fun k place hplace => ?_⟩
      · show r.made ++ _ = _
        rw [hk.made]
        simp [History.step, Life.job, Tracker.afterCalls]
      · rw [Registry.apply, hk.get?_create, hk.get, hlength]
        simp [History.step, Function.update_apply]
      · simp only [History.step, Function.update_apply, List.length_append,
          List.length_singleton] at hplace ⊢
        split at hplace
        · cases hplace
          omega
        · exact Nat.lt_succ_of_lt (hk.placed k place hplace)
  | get name => exact hk
  | remove name =>
      refine ⟨hk.made, hk.ordered.filter _, fun k => ?_, fun k place hplace => ?_⟩
      · rw [Registry.apply, hk.get?_remove, hk.get]
        simp [History.step, Function.update_apply]
      · simp only [History.step, Function.update_apply] at hplace
        split at hplace
        · cases hplace
        · exact hk.placed k place hplace
  | expire maxAge =>
      refine ⟨hk.made, hk.ordered.filter _, fun k => ?_, fun k place hplace => ?_⟩
      · rw [Registry.apply, hk.get?_expire, hk.get]
        rfl
      · exact hk.placed k place (Option.filter_eq_some_iff.1 hplace).1
  | call place c =>
      refine ⟨?_, hk.ordered, hk.get, fun k place' hplace => ?_⟩
      · show List.modify r.made place _ = _
        rw [hk.made]
        exact modify_job ..
      · simp only [History.step, List.length_modify]
        exact hk.placed k place' hplace

/-- A registry keeps to its history. -/
theorem after (ops : List (Nat × Op)) : Kept (after ops) (History.after ops) := by
  unfold Registry.after History.after
  induction ops using List.reverseRecOn with
  | nil => exact ⟨rfl, .nil, fun _ => rfl, fun _ _ h => by cases h⟩
  | append_singleton ops op ih =>
      rw [List.foldl_append, List.foldl_append]
      exact ih.apply op.1 op.2

-- ==================================================================== expiry

/-- A name leads to a tracker, and expiry drops it when that tracker has been
finished and its age is reached. -/
theorem dropped_iff (hk : Kept r h) (hname : r.get? name = some place) :
    ∃ l, h.lives[place]? = some l ∧ r.job? place = some l.job
      ∧ ∀ now maxAge, (r.expire now maxAge).2.get? name
        = if .finish ∈ l.calls ∧ maxAge ≤ now - l.created then none
          else some place := by
  have hplace := hk.placed name place (by rw [← hk.get, hname])
  have hlife := List.getElem?_eq_getElem hplace
  refine ⟨_, hlife, by rw [hk.job?, hlife]; rfl, fun now maxAge => ?_⟩
  rw [hk.get?_expire, hname, Option.filter_some, hlife]
  simp only [Option.any_some, Life.isOver, Bool.not_eq_true', Bool.and_eq_false_iff,
    decide_eq_false_iff_not]
  split <;> split <;> tauto

/-- As many jobs are dropped as names lead nowhere any more. -/
theorem expire_fst (hk : Kept r h) (now maxAge : Nat) :
    (r.expire now maxAge).1
      = {name | (r.get? name).isSome = true
          ∧ (r.expire now maxAge).2.get? name = none}.ncard :=
  hk.ordered.length_sub_filter _

end Kept

/-- What a job goes by when the phase tells its end: it is dropped in that
phase when its age is reached, and stays under its name otherwise. -/
def ExpiresByPhase (r : Registry) : Prop :=
  ∀ now maxAge name place j, r.get? name = some place → r.job? place = some j →
    (r.expire now maxAge).2.get? name
      = if j.tracker.progress.phase = .done ∧ maxAge ≤ now - j.created then none
        else some place

/-- Jobs expire by their phase when every tracker with a name is in step. -/
theorem Kept.expiresByPhase_iff (hk : Kept r h) :
    r.ExpiresByPhase ↔ ∀ name place l, r.get? name = some place →
      h.lives[place]? = some l → l.InStep := by
  have hphase : ∀ l : Life, l.job.tracker.progress.phase = l.phase := fun l =>
    Tracker.phase_afterCalls l.listened l.calls
  constructor
  · intro hexpires name place l hname hl
    obtain ⟨l', hl', hjob, hdropped⟩ := hk.dropped_iff hname
    rw [hl] at hl'
    cases hl'
    -- at the age zero only the end is asked for
    have hzero := (hexpires 0 0 name place _ hname hjob).symm.trans
      (hdropped 0 0)
    rw [hphase] at hzero
    unfold Life.InStep
    by_cases hdone : l.phase = .done <;> by_cases hfinish : .finish ∈ l.calls
      <;> simp [hdone, hfinish] at hzero ⊢
  · intro hstep now maxAge name place j hname hj
    obtain ⟨l, hl, hjob, hdropped⟩ := hk.dropped_iff hname
    rw [hj] at hjob
    cases hjob
    rw [hdropped, hphase]
    exact if_congr (and_congr_left' (hstep name place l hname hl)) rfl rfl

/-- Through one ingestion, which ends with its finish, a tracker is in
step. -/
theorem Life.inStep_of_one_ingestion {body : List Tracker.Call}
    (hbody : ∀ c ∈ body, c.phase? ≠ some .done)
    (hl : l.calls <+: body ++ [.finish]) : l.InStep := by
  unfold InStep phase
  rcases List.prefix_concat_iff.1 hl with hall | hpart
  · rw [hall]
    simp [Tracker.Call.phase?]
  · have hfinish : .finish ∉ l.calls := fun hmem =>
      hbody _ (hpart.subset hmem) rfl
    refine iff_of_false hfinish fun hdone => ?_
    have hlast : (l.calls.filterMap Tracker.Call.phase?).getLastD .idle
        ∈ Phase.idle :: l.calls.filterMap Tracker.Call.phase? :=
      List.getLastD_mem_cons
    rw [hdone, List.mem_cons] at hlast
    obtain ⟨c, hc, hphase⟩ := List.mem_filterMap.1
      (hlast.resolve_left (by decide))
    exact hbody c (hpart.subset hc) hphase

/-- So jobs expire by their phase as long as no tracker is used for a second
one. -/
theorem expiresByPhase_of_one_ingestion_each (ops : List (Nat × Op))
    (hlives : ∀ l ∈ (History.after ops).lives, ∃ body,
      (∀ c ∈ body, Tracker.Call.phase? c ≠ some .done)
        ∧ l.calls <+: body ++ [.finish]) :
    (after ops).ExpiresByPhase := by
  refine (Kept.after ops).expiresByPhase_iff.2 fun name place l _ hl => ?_
  obtain ⟨body, hbody, hcalls⟩ := hlives l (List.mem_of_getElem? hl)
  exact Life.inStep_of_one_ingestion hbody hcalls

/-- After any run, a registry has what its history tells, and every name
leads to a tracker. Expiry drops the names whose trackers have ever been
finished and have reached the age, tells how many these are, and leaves the
other names and all trackers as they are. It goes by the phases of the
trackers exactly when each that has a name has been finished if its phase
says so, and only then. -/
theorem expire_drops_finished (ops : List (Nat × Op)) :
    let r := after ops
    let h := History.after ops
    (r.made = h.lives.map Life.job ∧ ∀ name, r.get? name = h.under name)
    ∧ (∀ name place, r.get? name = some place →
      ∃ l, h.lives[place]? = some l ∧ r.job? place = some l.job
        ∧ ∀ now maxAge, (r.expire now maxAge).2.get? name
          = if .finish ∈ l.calls ∧ maxAge ≤ now - l.created then none
            else some place)
    ∧ (∀ now maxAge,
        (r.expire now maxAge).1
            = {name | (r.get? name).isSome = true
                ∧ (r.expire now maxAge).2.get? name = none}.ncard
        ∧ (r.expire now maxAge).2.made = r.made
        ∧ ∀ name, r.get? name = none → (r.expire now maxAge).2.get? name = none)
    ∧ (r.ExpiresByPhase ↔ ∀ name place l, r.get? name = some place →
        h.lives[place]? = some l →
        (.finish ∈ l.calls
          ↔ (l.calls.filterMap Tracker.Call.phase?).getLastD .idle = .done)) := by
  intro r h
  have hk := Kept.after ops
  refine ⟨⟨hk.made, hk.get⟩, fun name place hname => hk.dropped_iff hname,
    fun now maxAge => ⟨hk.expire_fst now maxAge, rfl, fun name hname => ?_⟩,
    hk.expiresByPhase_iff⟩
  rw [hk.get?_expire, hname]
  rfl

/-- A tracker that is started again is dropped while it is processing, and
one that is only said to be done is not dropped. -/
theorem expire_drops_restarted :
    let r := after [(0, .create "a" true), (0, .call 0 .finish),
      (0, .call 0 (.start 3)), (0, .create "b" true),
      (0, .call 1 (.setPhase .done))]
    (r.snapshot? "a").map (·.phase) = some .processing
      ∧ (r.expire 0 0).2.get? "a" = none
      ∧ (r.snapshot? "b").map (·.phase) = some .done
      ∧ (r.expire 0 0).2.get? "b" = some 1
      ∧ (r.expire 0 0).1 = 1 ∧ ¬ r.ExpiresByPhase := by
  intro r
  have hkept : (r.expire 0 0).2.get? "b" = some 1 := by decide
  refine ⟨by decide, by decide, by decide, hkept, by decide, fun hexpires => ?_⟩
  have hgone := hexpires 0 0 "b" 1 ⟨.afterCalls true [.setPhase .done], 0⟩
    (by decide) (by decide)
  rw [hkept] at hgone
  revert hgone
  decide

end Registry

end SourceDigest
