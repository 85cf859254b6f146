import Luwes.Sahl.Applied
import Luwes.Lib.History

/-!
# Metadata and metrics across the request and the response

Two functions apply the metadata and metric queues.  `flush` applies them when the request goes on
and leaves them as they are; `flushResponseMutations` applies them when the stream ends and empties
them.  A filter with a response observer runs both, so whatever the first has applied the second
applies again.

A request that is rejected shows the opposite fault.  After a `Send` no flush applies anything, so
the metrics of the handler reach the handle only if an operation that ended before the `Send` had
them flushed, or if the filter has an observer and `OnStreamComplete` flushes them.
-/

namespace Luwes.Sahl

open LabelledRun

/-! ## Applied twice -/

namespace State

/-- The step does not flush updates that will be flushed again: the Writer has responded, or both
queues are empty. -/
def FlushesNoUpdate (s : State) (l : Label) : Prop :=
  s.runsFlush l = true →
    s.writer.responded = true ∨ (s.writer.metaMuts = [] ∧ s.writer.counterMuts = [])

instance (s : State) (l : Label) : Decidable (s.FlushesNoUpdate l) :=
  inferInstanceAs (Decidable (_ → _ ∨ (_ ∧ _)))

/-- The updates applied so far and those in the queues. -/
def updates (s : State) : List CallId := appliedMutations s.trace ++ s.writer.queuedMutations

/-- What holds beside the updates: whether the Writer has responded is known from the trace, and an
update is one of a call already made. -/
structure UpdateInv (s : State) : Prop where
  shape : s.Shape
  sends : SendAccount s.toLedger
  lt : ∀ id ∈ s.updates, id.seq < s.seq

lemma queuedMutations_eq_nil {w : Writer} :
    w.queuedMutations = [] ↔ w.metaMuts = [] ∧ w.counterMuts = [] := by
  simp [Writer.queuedMutations]

lemma Untouched.queuedMutations {s : State} (hs : s.Untouched) : s.writer.queuedMutations = [] := by
  rw [hs.queues.queuedMutations]
  rfl

/-- What a step does to the updates: nothing, one more is queued, or a flush applies the queues and
keeps them. -/
lemma updates_cases {s : State} {l : Label} {g : Ledger} (hI : s.UpdateInv) (h : Changes s l g) :
    (s.runsFlush l = false ∧ s.seq ≤ g.seq ∧
        (appliedMutations g.trace ++ g.writer.queuedMutations).Perm s.updates) ∨
      (s.runsFlush l = false ∧ g.seq = s.seq + 1 ∧
        (appliedMutations g.trace ++ g.writer.queuedMutations).Perm
          (⟨s.request, s.seq⟩ :: s.updates)) ∨
      (s.runsFlush l = true ∧ g.seq = s.seq ∧
        appliedMutations g.trace ++ g.writer.queuedMutations =
          if s.writer.responded then s.updates else s.updates ++ s.writer.queuedMutations) := by
  cases h with
  | quiet hflush h =>
      refine .inl ⟨hflush, Nat.le_of_eq h.seq.symm, ?_⟩
      rw [h.appliedMutations_eq, h.queues.queuedMutations]
      rfl
  | acquired hflush hphase h =>
      refine .inl ⟨hflush, Nat.le_of_eq h.seq.symm, ?_⟩
      rw [h.appliedMutations_eq, h.queues.queuedMutations, updates,
        (hI.shape.fresh hphase).queuedMutations]
      rfl
  | called who c hflush =>
      rw [Ledger.appliedMutations_userCall]
      rcases s.writer.userCall_queuedMutations ⟨s.request, s.seq⟩ c with hids | hids
      · refine .inl ⟨hflush, Nat.le_succ _, ?_⟩
        rw [show (s.toLedger.userCall who c).writer.queuedMutations = _ from hids]
        rfl
      · refine .inr (.inl ⟨hflush, rfl, ?_⟩)
        exact (hids.append_left _).trans List.perm_middle
  | @flushed g₁ g b hflush h₁ h =>
      have hqueue : g.writer.queuedMutations = s.writer.queuedMutations :=
        (h₁.queues.trans h.queues).queuedMutations
      refine .inr (.inr ⟨hflush, h.seq.trans h₁.seq, ?_⟩)
      rw [h.appliedMutations_eq, Ledger.appliedMutations_flush, h₁.appliedMutations_eq, hqueue]
      by_cases hresp : s.writer.responded = true
      · have hrej : g₁.writer.rejected = true := by
          simp [Writer.rejected, h₁.queues.responded, hresp]
        rw [Writer.appliedMutations_flush_rejected hrej, if_pos hresp, List.append_nil, updates]
      · have hnone : s.writer.localResp.isSome = false := by
          by_contra hsome
          exact hresp (hI.sends.localResp (eq_true_of_ne_false hsome))
        have hrej : g₁.writer.rejected = false := by
          rw [h₁.queues.rejected]
          simpa [Writer.rejected, hresp] using hnone
        rw [Writer.appliedMutations_flush hrej, h₁.queues.queuedMutations, if_neg hresp, updates]
  | responseFlushed hl hwriter hfn h =>
      refine .inl ⟨by simp [hl, runsFlush], Nat.le_of_eq h.seq.symm, ?_⟩
      have hempty : s.toLedger.flushResponseMutations.writer.queuedMutations = [] := rfl
      rw [h.appliedMutations_eq, h.queues.queuedMutations, Ledger.appliedMutations_flushResponse,
        hempty, List.append_nil, updates]

lemma updateInv_step {s s' : State} {l : Label} (hI : s.UpdateInv) (h : s.step l = some s') :
    s'.UpdateInv := by
  have hc := (step_moves h).changes
  refine ⟨shape_step hI.shape h, hI.sends.changes hI.shape hc, ?_⟩
  intro id hid
  have hlt := hI.lt
  rcases updates_cases hI hc with ⟨-, hle, hperm⟩ | ⟨-, heq, hperm⟩ | ⟨-, heq, hupd⟩
  · exact Nat.lt_of_lt_of_le (hlt id (hperm.subset hid)) hle
  · rw [heq]
    rcases List.mem_cons.mp (hperm.subset hid) with rfl | hold
    · exact Nat.lt_succ_self _
    · exact Nat.lt_succ_of_lt (hlt id hold)
  · rw [heq]
    rw [updates, hupd] at hid
    split_ifs at hid
    · exact hlt id hid
    · rcases List.mem_append.mp hid with hold | hold
      · exact hlt id hold
      · exact hlt id (List.mem_append_right _ hold)

lemma updateInv_new (r : ℕ) (d : FilterDef) : (State.new r d).UpdateInv where
  shape := shape_new r d
  sends := .new r d
  lt := by simp [updates, State.new, appliedMutations, Writer.queuedMutations, Writer.zero]

/-- A list followed by a part of it has no repetition only if the part is empty. -/
lemma nodup_append_sub_iff {α : Type*} {xs ys : List α} (hsub : ∀ y ∈ ys, y ∈ xs) :
    (xs ++ ys).Nodup ↔ xs.Nodup ∧ ys = [] := by
  constructor
  · intro h
    obtain ⟨hxs, -, hdisj⟩ := List.nodup_append.mp h
    refine ⟨hxs, List.eq_nil_iff_forall_not_mem.mpr fun y hy => ?_⟩
    exact hdisj y (hsub y hy) y hy rfl
  · rintro ⟨hxs, rfl⟩
    simpa using hxs

/-- A step keeps the updates distinct exactly when it flushes none that stays in its queue. -/
lemma updates_nodup_step {s s' : State} {l : Label} (hI : s.UpdateInv) (h : s.step l = some s') :
    s'.updates.Nodup ↔ s.updates.Nodup ∧ s.FlushesNoUpdate l := by
  rcases updates_cases hI (step_moves h).changes with
    ⟨hflush, -, hperm⟩ | ⟨hflush, -, hperm⟩ | ⟨hflush, -, hupd⟩
  · have hnone : s.FlushesNoUpdate l := by simp [FlushesNoUpdate, hflush]
    simp only [hnone, and_true]
    exact hperm.nodup_iff
  · have hnone : s.FlushesNoUpdate l := by simp [FlushesNoUpdate, hflush]
    have hfresh : (⟨s.request, s.seq⟩ : CallId) ∉ s.updates := fun hmem =>
      Nat.lt_irrefl _ (hI.lt _ hmem)
    have hiff : s'.updates.Nodup ↔ (⟨s.request, s.seq⟩ :: s.updates).Nodup := hperm.nodup_iff
    rw [hiff, List.nodup_cons]
    simp [hnone, hfresh]
  · rw [show s'.updates = _ from hupd]
    by_cases hresp : s.writer.responded = true
    · simp [hresp, FlushesNoUpdate]
    · have hsub : ∀ y ∈ s.writer.queuedMutations, y ∈ s.updates := fun y hy =>
        List.mem_append_right _ hy
      rw [if_neg hresp, nodup_append_sub_iff hsub, queuedMutations_eq_nil]
      simp [FlushesNoUpdate, hflush, hresp]

lemma queuedMutations_streamComplete {s s' : State} (hs : s.Shape)
    (hfn : s.filterDef.responseFn.isSome = true) (h : s.step .streamComplete = some s') :
    s'.writer.queuedMutations = [] := by
  cases step_moves h with
  | streamCompleteFlushed => rfl
  | streamCompletePassed _ hacc hskip =>
      have hwriter : s.hasWriter = false := by simpa [hfn] using hskip
      by_cases hphase : s.phase = .awaitingHeaders
      · exact (hs.fresh hphase).queuedMutations
      · have := hs.hasWriter hphase
        simp [hwriter, (accepting_live hacc).2] at this

end State

lemma filterDef_run {r : ℕ} {d : FilterDef} {ls : List State.Label} {s : State}
    (hrun : run State.step (State.new r d) ls = some s) : s.filterDef = d :=
  run_invariant (I := fun s : State => s.filterDef = d)
    (fun _ _ _ hs h => (State.step_moves h).filterDef_eq.trans hs) rfl hrun

/-- **The exact condition.**  With a response observer every metadata and metric update is applied
at most once in exactly the runs in which no flush applies one. -/
theorem appliedMutations_nodup_iff (r : ℕ) (d : FilterDef) (hfn : d.responseFn.isSome = true)
    (ls : List State.Label) (s : State)
    (hrun : run State.step (State.new r d) (ls ++ [.streamComplete]) = some s) :
    (appliedMutations s.trace).Nodup ↔
      Along State.step State.FlushesNoUpdate (State.new r d) (ls ++ [.streamComplete]) := by
  obtain ⟨m, hm, hlast⟩ := run_concat.mp hrun
  have hqueue : s.writer.queuedMutations = [] :=
    State.queuedMutations_streamComplete (State.shape_run hm) (by rwa [filterDef_run hm]) hlast
  have hiff := run_iff_along (P := fun s : State => s.updates.Nodup)
    (fun _ _ _ => State.updateInv_step) (fun _ _ _ => State.updates_nodup_step)
    (State.updateInv_new r d) hrun
  have hnew : (State.new r d).updates.Nodup := List.nodup_nil
  rw [State.updates, hqueue, List.append_nil] at hiff
  rw [hiff]
  exact and_iff_right hnew

/-- A handler that counts every request, and an observer that does nothing. -/
def countingFilter : FilterDef where
  handler := .call (.incrementCounter 1 1 []) .ret
  responseFn := some fun _ => .ret

/-- A request that passes, up to `OnStreamComplete`. -/
def passingRequest : List State.Label := [.requestHeaders true, .worker {}, .worker {}]

/-- `flush` applies the counter and leaves it in the queue, and `OnStreamComplete` applies it
again. -/
theorem countingFilter_counts_twice :
    ¬ ∀ (r : ℕ) (d : FilterDef) (ls : List State.Label) (s : State), d.responseFn.isSome = true →
      run State.step (State.new r d) (ls ++ [.streamComplete]) = some s →
      (appliedMutations s.trace).Nodup := by
  intro h
  have hnodup := h 0 countingFilter passingRequest _ rfl rfl
  exact absurd hnodup (by decide)

/-- The condition evaluated on the same run. -/
theorem appliedMutations_nodup_iff_passingRequest :
    ∃ s, run State.step (State.new 0 countingFilter) (passingRequest ++ [.streamComplete]) = some s ∧
      ((appliedMutations s.trace).Nodup ↔
        Along State.step State.FlushesNoUpdate (State.new 0 countingFilter)
          (passingRequest ++ [.streamComplete])) :=
  ⟨_, rfl, appliedMutations_nodup_iff 0 countingFilter rfl passingRequest _ rfl⟩

end Luwes.Sahl
