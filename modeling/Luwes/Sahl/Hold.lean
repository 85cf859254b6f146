import Luwes.Sahl.Shape
import Luwes.Lib.History

/-!
# The pause after `HeadersStatusStop`

A handler that starts an operation makes `OnRequestHeaders` return `HeadersStatusStop`, and the
request is to stay paused until the operation has ended in `ContinueRequest` or in a local response.
Under the contract of `shared/api.go` the pause can also be ended by a later callback: a
`BodyStatusContinue` or a `TrailersStatusContinue` resumes headers that were stopped with
`HeadersStatusStop`.

`Held` is the pause, read off the record of the request, and `HoldsUntilDone` says that no callback
ends it.  A filter that is not body-aware returns `BodyStatusContinue` from every `OnRequestBody`
and `TrailersStatusContinue` from every `OnRequestTrailers`, whether the request is paused or not.
So the pause holds in exactly the runs in which neither callback comes while the request is paused.
-/

namespace Luwes.Sahl

open LabelledRun History

/-! ## The pause -/

/-- The event is a status that resumes headers stopped with `HeadersStatusStop`. -/
def Obs.resumes : Obs → Bool
  | .returned (.requestBody _ st) => st.resumes
  | .returned (.requestTrailers st) => st.resumes
  | _ => false

/-- The event ends the pause: `ContinueRequest` is called, or a local response is sent. -/
def Obs.endsHold : Obs → Bool
  | .call .continueRequest | .call (.sendLocalResponse _ _) => true
  | _ => false

/-- `OnRequestHeaders` has returned `HeadersStatusStop`, and nothing that ends a pause has happened. -/
def Held (tr : List Obs) : Prop :=
  .returned (.requestHeaders .statusStop) ∈ tr ∧ ∀ o ∈ tr, o.endsHold = false

instance (tr : List Obs) : Decidable (Held tr) := inferInstanceAs (Decidable (_ ∧ _))

/-- No callback resumes the request while it is held. -/
def HoldsUntilDone (tr : List Obs) : Prop :=
  Always (fun pre o => Held pre → o.resumes = false) tr

/-- The label is one of the two events that carry more of the request. -/
def State.Label.isRequestData : State.Label → Bool
  | .requestBody _ | .requestTrailers => true
  | _ => false

/-! ## One step -/

namespace State

/-- A step that brings no more of the request returns no resuming status. -/
lemma moves_resumes_false {s s' : State} {l : Label} (hI : s.NoBodyFrame) (h : Moves s l s')
    (hl : l.isRequestData = false) :
    ∃ obs, s'.trace = s.trace ++ obs ∧ ∀ o ∈ obs, o.resumes = false := by
  obtain ⟨obs, htr, hobs⟩ := h.emits
  refine ⟨obs, htr, fun o ho => ?_⟩
  have hemits := hobs o ho
  rcases o with _ | _ | _ | _ | _ | _ | _ | _ | r
  case returned =>
    rcases r with _ | ⟨endStream, st⟩ | st | _ | _ | _ | _ | _
    case requestBody =>
      rcases hemits with ⟨rfl, -⟩ | ⟨rfl, -⟩ | ⟨⟨c, rest, rfl, hstack⟩, -⟩
      · simp [Label.isRequestData] at hl
      · simp [Label.isRequestData] at hl
      · exact absurd (by simp [callbacks, hstack]) hI.2
    case requestTrailers =>
      obtain ⟨rfl, -⟩ := hemits
      simp [Label.isRequestData] at hl
    all_goals rfl
  all_goals rfl

/-- A step that brings more of the request returns a resuming status and nothing else. -/
lemma moves_resumes_true {s s' : State} {l : Label} (hI : s.NoBodyFrame) (h : Moves s l s')
    (hl : l.isRequestData = true) : ∃ o, s'.trace = s.trace ++ [o] ∧ o.resumes = true := by
  have hbody := hI.1
  cases h with
  | bodyHandled _ _ hb | bodyBuffered _ _ hb => simp [hbody] at hb
  | bodyPassed => exact ⟨_, rfl, rfl⟩
  | trailersPassed => exact ⟨_, rfl, rfl⟩
  | _ => simp [Label.isRequestData] at hl

/-- A step keeps the hold exactly when it brings no more of a request that is held. -/
lemma holds_step {s s' : State} {l : Label} (hI : s.NoBodyFrame) (h : s.step l = some s') :
    HoldsUntilDone s'.trace ↔
      HoldsUntilDone s.trace ∧ (Held s.trace → l.isRequestData = false) := by
  have hm := step_moves h
  cases hl : l.isRequestData with
  | false =>
      obtain ⟨obs, htr, hobs⟩ := moves_resumes_false hI hm hl
      have hnew : Always (fun pre o => Held (s.trace ++ pre) → o.resumes = false) obs :=
        always_of_forall fun o ho _ _ => hobs o ho
      simp [HoldsUntilDone, htr, always_append, hnew]
  | true =>
      obtain ⟨o, htr, ho⟩ := moves_resumes_true hI hm hl
      simp [HoldsUntilDone, htr, always_append, ho]

end State

/-! ## What is in flight while the request is held

`Held` says nothing about operations.  It does not have to: when `OnRequestHeaders` returns
`HeadersStatusStop` and no local response has been sent, one of the three flags is set. -/

namespace State

/-- A local response has been sent. -/
def Sent (tr : List Obs) : Prop := ∃ o ∈ tr, o.endsHold = true

lemma sent_append {tr obs : List Obs} (h : Sent tr) : Sent (tr ++ obs) := by
  obtain ⟨o, ho, hend⟩ := h
  exact ⟨o, List.mem_append_left _ ho, hend⟩

/-- A response that is not deferred has been sent, and a stop without one has an operation. -/
structure StopInv (s : State) : Prop where
  responded : s.writer.responded = true → s.writer.goStarted = true ∨ Sent s.trace
  stopped : .returned (.requestHeaders .statusStop) ∈ s.trace →
    s.writer.asyncStarted = true ∨ Sent s.trace

lemma sent_of_userCall {g : Ledger} {who : Actor} {c : UserCall}
    (hg : g.writer.responded = true → g.writer.goStarted = true ∨ Sent g.trace)
    (h : (g.userCall who c).writer.responded = true) :
    (g.userCall who c).writer.goStarted = true ∨ Sent (g.userCall who c).trace := by
  have hcall := g.writer.userCall_called ⟨g.request, g.seq⟩ c
  simp only [Ledger.userCall] at h ⊢
  generalize g.writer.userCall ⟨g.request, g.seq⟩ c = res at hcall h ⊢
  cases hcall with
  | sends statusCode body =>
      exact .inr ⟨_, List.mem_append_right _ (List.mem_cons_of_mem _ List.mem_cons_self), rfl⟩
  | defers _ _ _ hgo => exact .inl hgo
  | _ => exact (hg h).imp_right sent_append

lemma responded_step {s : State} {l : Label} {g : Ledger}
    (hs : s.writer.responded = true → s.writer.goStarted = true ∨ Sent s.trace)
    (h : Changes s l g) (hresp : g.writer.responded = true) :
    g.writer.goStarted = true ∨ Sent g.trace := by
  cases h with
  | quiet _ h =>
      obtain ⟨obs, htr, -⟩ := h.trace
      rw [htr]
      exact (hs (by rwa [← h.queues.responded])).imp h.queues.goStarted sent_append
  | acquired _ _ h => simp [h.queues.responded, Ledger.acquireWriter, Ledger.setWriter,
      Writer.reset] at hresp
  | called who c => exact sent_of_userCall hs hresp
  | flushed b _ h₁ h =>
      obtain ⟨obs₁, htr₁, -⟩ := h₁.trace
      obtain ⟨obs, htr, -⟩ := h.trace
      have hq := h₁.queues.trans h.queues
      rw [htr, Ledger.flush, Ledger.emit, htr₁]
      exact (hs (by rwa [← hq.responded])).imp hq.goStarted
        fun hsent => sent_append (sent_append (sent_append hsent))
  | responseFlushed _ _ _ h =>
      obtain ⟨obs, htr, -⟩ := h.trace
      rw [htr]
      exact (hs (by rwa [h.queues.responded] at hresp)).imp h.queues.goStarted
        fun hsent => sent_append (sent_append hsent)

lemma stopInv_step {s s' : State} {l : Label} (hI : s.Shape ∧ s.StopInv)
    (h : s.step l = some s') : s'.Shape ∧ s'.StopInv := by
  obtain ⟨hshape, hstop⟩ := hI
  have hm := step_moves h
  have hresp := responded_step hstop.responded hm.changes
  have hsent : Sent s.trace → Sent s'.trace := by
    obtain ⟨obs, htr, -⟩ := hm.emits
    rw [htr]
    exact sent_append
  refine ⟨shape_step hshape h, hresp, fun hmem => ?_⟩
  have hphase : s.phase ≠ .awaitingHeaders := by
    intro hp
    have hfresh := hshape.fresh hp
    rcases hm.mem_trace hmem with hold | ⟨-, -, hst⟩ | ⟨⟨c, rest, -, hstack⟩, -⟩
    · simpa [Obs.isPrelude] using hfresh.prelude _ hold
    · simp at hst
    · have := (hfresh.observers _ (by rw [hstack]; exact List.mem_cons_self)).1
      simp [Callback.isObserver] at this
  have hflags := hm.changes.flags hphase
  rcases hm.mem_trace hmem with hold | ⟨hp, -⟩ | ⟨-, hst⟩
  · exact (hstop.stopped hold).imp hflags.2 hsent
  · exact absurd hp hphase
  · by_cases hasync : s.writer.asyncStarted = true
    · exact .inl (hflags.2 hasync)
    · have hresponded : s.writer.responded = true := by
        by_contra hno
        simp [headersStatus, hasync, hno] at hst
      refine (hstop.responded hresponded).imp (fun hgo => ?_) hsent
      exact absurd (by simp [Writer.asyncStarted, hgo]) hasync

/-- While the request is held an operation has been started. -/
theorem asyncStarted_of_held {r : ℕ} {d : FilterDef} {ls : List Label} {s : State}
    (hrun : run step (State.new r d) ls = some s) (hheld : Held s.trace) :
    s.writer.asyncStarted = true := by
  have hnew : (State.new r d).StopInv := ⟨by simp [State.new, Writer.zero], by simp [State.new]⟩
  have hI := run_invariant (I := fun s : State => s.Shape ∧ s.StopInv)
    (fun _ _ _ => stopInv_step) ⟨shape_new r d, hnew⟩ hrun
  rcases hI.2.stopped hheld.1 with h | ⟨o, ho, hend⟩
  · exact h
  · simp [hheld.2 o ho] at hend

end State

/-! ## Whole runs -/

/-- **The exact condition.**  The request stays held until the work is done in exactly the runs in
which no `OnRequestBody` and no `OnRequestTrailers` comes while it is held. -/
theorem holdsUntilDone_iff (r : ℕ) (d : FilterDef) (hd : d.bodyAware = false)
    (ls : List State.Label) (s : State) (hrun : run State.step (State.new r d) ls = some s) :
    HoldsUntilDone s.trace ↔
      Along State.step (fun s l => Held s.trace → l.isRequestData = false) (State.new r d) ls := by
  have hI : (State.new r d).NoBodyFrame := ⟨hd, by simp [State.callbacks, State.new]⟩
  have h := run_iff_along (P := fun s : State => HoldsUntilDone s.trace)
    (fun _ _ _ => State.noBodyFrame_step) (fun _ _ _ => State.holds_step) hI hrun
  simpa [State.new, HoldsUntilDone] using h

/-- `OnRequestHeaders` of a handler that starts one callout, up to its return. -/
def headersWithCallout : List State.Label :=
  [.requestHeaders false, .worker {}, .worker {}, .worker {}]

/-- The request is held after the callout has been started. -/
example : ((run State.step (State.new 0 authFilter)
    headersWithCallout).map fun s => decide (Held s.trace)) = some true := by decide

/-- The body arrives while the callout is in flight, and `OnRequestBody` lets the request go. -/
theorem body_releases_held_request :
    ¬ ∀ (r : ℕ) (d : FilterDef) (ls : List State.Label) (s : State), d.bodyAware = false →
      run State.step (State.new r d) ls = some s → HoldsUntilDone s.trace := by
  intro h
  have hrun := h 0 authFilter
    (headersWithCallout ++ [.requestBody true]) _ rfl rfl
  have hresumes := hrun _ (.returned (.requestBody true .statusContinue)) [] rfl (by decide)
  simp [Obs.resumes, BodyStatus.resumes] at hresumes

/-- The condition evaluated on the run of the callout without a body. -/
theorem holdsUntilDone_iff_headersWithCallout :
    ∃ s, run State.step (State.new 0 authFilter)
        headersWithCallout = some s ∧
      (HoldsUntilDone s.trace ↔
        Along State.step (fun s l => Held s.trace → l.isRequestData = false)
          (State.new 0 authFilter) headersWithCallout) :=
  ⟨_, rfl, holdsUntilDone_iff 0 authFilter rfl headersWithCallout _ rfl⟩

end Luwes.Sahl
