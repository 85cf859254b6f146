import Luwes.Lib.LabelledRun
import Mathlib.Algebra.Group.Nat.Defs
import Mathlib.Data.List.Nodup
import Mathlib.Data.List.Perm.Basic
import Mathlib.Logic.Function.Basic

/-!
# The scheduler (`dymScheduler`, `abi_impl/internal.go`)

`Schedule` takes an identifier and stores the task under the lock, and then commits the identifier to the
host.  `onScheduled`, on the worker thread, takes the task out under the lock and runs it.  Any number of
goroutines schedule at the same time, and so do the tasks themselves while they run, so the two halves of
`Schedule` and the deliveries come in any order.

The host is not trusted with anything here: a delivery may name any identifier, at any time.  What holds
of every run in which the 64-bit counter does not come round is `RunsOnce`.
-/

namespace Luwes.AbiImpl.Scheduler

open LabelledRun

variable {τ : Type}

/-! ## The model -/

/-- `dymScheduler`: the host's scheduler it commits to, the counter and the task map.  A nil task is
not scheduled by anyone. -/
structure DymScheduler (τ : Type) where
  schedulerPtr : ℕ := 0
  nextTaskID : UInt64 := 0
  tasks : UInt64 → Option τ := fun _ => none

/-- The locked part of `Schedule`: the identifier and the scheduler after it. -/
def DymScheduler.register (s : DymScheduler τ) (task : τ) : UInt64 × DymScheduler τ :=
  (s.nextTaskID,
    { s with
      nextTaskID := s.nextTaskID + 1
      tasks := Function.update s.tasks s.nextTaskID (some task) })

/-- `onScheduled`: the task it runs, `none` if it runs nothing, and the scheduler after it. -/
def DymScheduler.onScheduled (s : DymScheduler τ) (taskID : UInt64) : Option τ × DymScheduler τ :=
  (s.tasks taskID, { s with tasks := Function.update s.tasks taskID none })

/-- A scheduler in use, with the identifiers on their way to the host and the record of what was
scheduled and what was run, oldest first. -/
structure State (τ : Type) where
  scheduler : DymScheduler τ := {}
  /-- Registered, and the call of `commitFunc` is still to come. -/
  registered : List UInt64 := []
  /-- Committed to the host. -/
  committed : List UInt64 := []
  scheduled : List (UInt64 × τ) := []
  ran : List (UInt64 × τ) := []

/-- Who moves. -/
inductive Label (τ : Type)
  /-- A goroutine, or a task that is running, is inside `Schedule` and takes the lock. -/
  | register (task : τ)
  /-- One of the calls of `Schedule` that have left the lock commits its identifier. -/
  | commit (i : ℕ)
  /-- The host delivers an identifier, whatever it is. -/
  | deliver (taskID : UInt64)

/-- One step. -/
def State.step (s : State τ) : Label τ → Option (State τ)
  | .register task =>
    let r := s.scheduler.register task
    some
      { s with
        scheduler := r.2
        registered := s.registered ++ [r.1]
        scheduled := s.scheduled ++ [(r.1, task)] }
  | .commit i =>
    (s.registered[i]?).map fun taskID =>
      { s with registered := s.registered.eraseIdx i, committed := s.committed ++ [taskID] }
  | .deliver taskID =>
    let r := s.scheduler.onScheduled taskID
    some { s with scheduler := r.2, ran := s.ran ++ (r.1.map fun task => (taskID, task)).toList }

/-! ## What is promised -/

/-- The identifiers of a record. -/
def taskIDs (es : List (UInt64 × τ)) : List UInt64 := es.map (·.1)

@[simp] lemma taskIDs_append (es es' : List (UInt64 × τ)) :
    taskIDs (es ++ es') = taskIDs es ++ taskIDs es' := List.map_append

lemma mem_taskIDs {es : List (UInt64 × τ)} {taskID : UInt64} :
    taskID ∈ taskIDs es ↔ ∃ task, (taskID, task) ∈ es := by
  simp [taskIDs]

/-- Every task runs at most once, and a delivery runs exactly what its identifier stands for. -/
structure State.RunsOnce (s : State τ) : Prop where
  /-- All identifiers are distinct. -/
  distinct : (taskIDs s.scheduled).Nodup
  /-- What has run had been scheduled under that identifier. -/
  own : ∀ e ∈ s.ran, e ∈ s.scheduled
  /-- Nothing has run twice. -/
  once : (taskIDs s.ran).Nodup
  /-- The host only has identifiers of scheduled tasks, each of them once. -/
  committed : (∀ taskID ∈ s.committed, taskID ∈ taskIDs s.scheduled) ∧ s.committed.Nodup
  /-- The delivery of an identifier whose task has not run runs that task and no other. -/
  runs : ∀ taskID task, (taskID, task) ∈ s.scheduled → taskID ∉ taskIDs s.ran →
    ∃ s', s.step (.deliver taskID) = some s' ∧ s'.ran = s.ran ++ [(taskID, task)] ∧
      s'.scheduled = s.scheduled
  /-- The delivery of an identifier that is unknown, or whose task has run, changes nothing. -/
  ignores : ∀ taskID, taskID ∉ taskIDs s.scheduled ∨ taskID ∈ taskIDs s.ran →
    s.step (.deliver taskID) = some s

/-! ## The invariant -/

/-- The counter, the task map and the records belong together. -/
structure State.Sound (s : State τ) : Prop where
  next : s.scheduler.nextTaskID = UInt64.ofNat s.scheduled.length
  ids : taskIDs s.scheduled = (List.range s.scheduled.length).map UInt64.ofNat
  tasks : ∀ taskID task, s.scheduler.tasks taskID = some task ↔
    (taskID, task) ∈ s.scheduled ∧ taskID ∉ taskIDs s.ran
  own : ∀ e ∈ s.ran, e ∈ s.scheduled
  once : (taskIDs s.ran).Nodup
  handed : (s.registered ++ s.committed).Perm (taskIDs s.scheduled)

lemma sound_new : ({} : State τ).Sound where
  next := rfl
  ids := rfl
  tasks taskID task := by simp
  own e h := by simp at h
  once := List.nodup_nil
  handed := List.Perm.refl _

namespace State.Sound

variable {s s' : State τ}

/-- As long as the counter has not come round, no identifier is given out twice. -/
lemma distinct (hs : s.Sound) (hlt : s.scheduled.length ≤ 2 ^ 64) :
    (taskIDs s.scheduled).Nodup := by
  rw [hs.ids]
  refine List.Nodup.map_on (fun i hi j hj hij => ?_) List.nodup_range
  have hi := List.mem_range.mp hi
  have hj := List.mem_range.mp hj
  have hnat := congrArg UInt64.toNat hij
  simp only [UInt64.toNat_ofNat'] at hnat
  rwa [Nat.mod_eq_of_lt (by omega), Nat.mod_eq_of_lt (by omega)] at hnat

/-- What has run is no longer in the map. -/
lemma tasks_none (hs : s.Sound) {taskID : UInt64}
    (h : taskID ∉ taskIDs s.scheduled ∨ taskID ∈ taskIDs s.ran) : s.scheduler.tasks taskID = none := by
  rw [Option.eq_none_iff_forall_ne_some]
  intro task htask
  obtain ⟨hmem, hran⟩ := (hs.tasks taskID task).mp htask
  rcases h with h | h
  · exact h (mem_taskIDs.mpr ⟨task, hmem⟩)
  · exact hran h

lemma register (hs : s.Sound) (hlt : s.scheduled.length < 2 ^ 64) {task : τ}
    (h : s.step (.register task) = some s') : s'.Sound := by
  have hfresh : s.scheduler.nextTaskID ∉ taskIDs s.scheduled := by
    rw [hs.ids, hs.next, List.mem_map]
    rintro ⟨i, hi, heq⟩
    have hi := List.mem_range.mp hi
    have hnat := congrArg UInt64.toNat heq
    simp only [UInt64.toNat_ofNat'] at hnat
    rw [Nat.mod_eq_of_lt (by omega), Nat.mod_eq_of_lt hlt] at hnat
    omega
  have hran : s.scheduler.nextTaskID ∉ taskIDs s.ran := by
    intro hmem
    obtain ⟨t, ht⟩ := mem_taskIDs.mp hmem
    exact hfresh (mem_taskIDs.mpr ⟨t, hs.own _ ht⟩)
  obtain rfl := Option.some.inj h
  constructor
  · simp [DymScheduler.register, hs.next]
  · rw [taskIDs_append, hs.ids, List.length_append, List.length_singleton, List.range_succ,
      List.map_append]
    simp [taskIDs, DymScheduler.register, hs.next]
  · intro taskID t
    by_cases hid : taskID = s.scheduler.nextTaskID
    · subst hid
      have hnot : (s.scheduler.nextTaskID, t) ∉ s.scheduled :=
        fun hmem => hfresh (mem_taskIDs.mpr ⟨t, hmem⟩)
      simp [DymScheduler.register, hnot, hran, eq_comm]
    · simp [DymScheduler.register, hid, hs.tasks]
  · intro e he
    exact List.mem_append_left _ (hs.own e he)
  · exact hs.once
  · have hperm := hs.handed.append_right [s.scheduler.nextTaskID]
    refine List.Perm.trans ?_ (hperm.trans (by simp [taskIDs, DymScheduler.register]))
    simp only [DymScheduler.register, List.append_assoc]
    exact List.Perm.append_left _ List.perm_append_comm

lemma commit (hs : s.Sound) {i : ℕ} (h : s.step (.commit i) = some s') : s'.Sound := by
  obtain ⟨taskID, hget, rfl⟩ := Option.map_eq_some_iff.mp h
  obtain ⟨hi, rfl⟩ := List.getElem?_eq_some_iff.mp hget
  refine { hs with handed := ?_ }
  have herase : (s.registered[i] :: s.registered.eraseIdx i).Perm s.registered :=
    List.getElem_cons_eraseIdx_perm hi
  calc s.registered.eraseIdx i ++ (s.committed ++ [s.registered[i]])
      = (s.registered.eraseIdx i ++ s.committed) ++ [s.registered[i]] :=
        (List.append_assoc _ _ _).symm
    List.Perm _ (s.registered[i] :: (s.registered.eraseIdx i ++ s.committed)) :=
        List.perm_append_singleton _ _
    List.Perm _ (s.registered ++ s.committed) := herase.append_right s.committed
    List.Perm _ (taskIDs s.scheduled) := hs.handed

lemma deliver_none {taskID : UInt64} (hnone : s.scheduler.tasks taskID = none) :
    s.step (.deliver taskID) = some s := by
  have hsame : Function.update s.scheduler.tasks taskID none = s.scheduler.tasks :=
    Function.update_eq_self_iff.mpr hnone.symm
  simp [State.step, DymScheduler.onScheduled, hnone, hsame]

lemma deliver_some {taskID : UInt64} {task : τ} (htask : s.scheduler.tasks taskID = some task) :
    s.step (.deliver taskID) = some
      { s with
        scheduler :=
          { s.scheduler with tasks := Function.update s.scheduler.tasks taskID none }
        ran := s.ran ++ [(taskID, task)] } := by
  simp [State.step, DymScheduler.onScheduled, htask]

lemma deliver (hs : s.Sound) {taskID : UInt64}
    (h : s.step (.deliver taskID) = some s') : s'.Sound := by
  cases htask : s.scheduler.tasks taskID with
  | none =>
      obtain rfl := Option.some.inj ((deliver_none htask).symm.trans h)
      exact hs
  | some task =>
      obtain rfl := Option.some.inj ((deliver_some htask).symm.trans h)
      obtain ⟨hmem, hnot⟩ := (hs.tasks taskID task).mp htask
      have honce : (taskIDs s.ran ++ [taskID]).Nodup := by
        rw [List.nodup_append_comm]
        exact List.nodup_cons.mpr ⟨hnot, hs.once⟩
      refine { hs with tasks := ?_, own := ?_, once := by simpa [taskIDs] using honce }
      · intro taskID' task'
        by_cases hid : taskID' = taskID
        · subst hid
          simp [taskIDs]
        · simp [hid, hs.tasks, taskIDs]
      · intro e he
        rcases List.mem_append.mp he with he | he
        · exact hs.own e he
        · rwa [List.mem_singleton.mp he]

lemma runsOnce (hs : s.Sound) (hlt : s.scheduled.length ≤ 2 ^ 64) : s.RunsOnce where
  distinct := hs.distinct hlt
  own := hs.own
  once := hs.once
  committed := by
    have hnodup := hs.handed.nodup_iff.mpr (hs.distinct hlt)
    refine ⟨fun taskID h => ?_, hnodup.of_append_right⟩
    exact hs.handed.subset (List.mem_append_right _ h)
  runs taskID task hmem hnot :=
    ⟨_, deliver_some ((hs.tasks taskID task).mpr ⟨hmem, hnot⟩), rfl, rfl⟩
  ignores taskID h := deliver_none (hs.tasks_none h)

end State.Sound

/-! ## Runs -/

lemma scheduled_length_le {s s' : State τ} {l : Label τ} (h : s.step l = some s') :
    s.scheduled.length ≤ s'.scheduled.length := by
  cases l with
  | register task =>
      obtain rfl := Option.some.inj h
      simp
  | commit i =>
      obtain ⟨_, -, rfl⟩ := Option.map_eq_some_iff.mp h
      exact Nat.le_refl _
  | deliver taskID =>
      obtain rfl := Option.some.inj h
      exact Nat.le_refl _

/-- As long as fewer than `2 ^ 64` tasks have been scheduled, the invariant holds. -/
lemma sound_step {s s' : State τ} {l : Label τ}
    (hs : s.scheduled.length < 2 ^ 64 → s.Sound) (h : s.step l = some s')
    (hlt : s'.scheduled.length < 2 ^ 64) : s'.Sound := by
  have hlt' := Nat.lt_of_le_of_lt (scheduled_length_le h) hlt
  cases l with
  | register task => exact (hs hlt').register hlt' h
  | commit i => exact (hs hlt').commit h
  | deliver taskID => exact (hs hlt').deliver h

/-- **The scheduler runs each task once.**  In every run of a new scheduler in which fewer than
`2 ^ 64` tasks are scheduled. -/
theorem scheduler_runsOnce {ls : List (Label τ)} {s : State τ}
    (hrun : run State.step {} ls = some s) (hlt : s.scheduled.length < 2 ^ 64) : s.RunsOnce :=
  have hsound : s.scheduled.length < 2 ^ 64 → s.Sound :=
    run_invariant (fun _ _ _ hs h => sound_step hs h) (fun _ => sound_new) hrun
  (hsound hlt).runsOnce (Nat.le_of_lt hlt)

/-- Two goroutines schedule; the second identifier is committed and delivered before the first, a
task schedules a third, and the host repeats one identifier and makes one up. -/
def overtaken : List (Label String) :=
  [.register "a", .register "b", .commit 1, .deliver 1, .register "c", .deliver 1, .commit 0,
    .deliver 0, .deliver 7]

/-- The state after `overtaken`. -/
def overtakenState : State String := ((run State.step {} overtaken).getD {})

theorem scheduler_runsOnce_overtaken :
    overtakenState.ran = [(1, "b"), (0, "a")] ∧ overtakenState.RunsOnce :=
  ⟨rfl, @scheduler_runsOnce _ overtaken _ rfl (by decide)⟩

end Luwes.AbiImpl.Scheduler
