import Luwes.Sahl.FlowControl
import Luwes.Sahl.Rejection
import Luwes.Sahl.Resume

/-!
# Asynchronous work started from `OnRequestBody`

`OnRequestBody` runs the handler of a body-aware filter and ends like `OnRequestHeaders`, except
that it does not look at the three flags of `Writer.asyncStarted`.  It flushes whatever the handler
has queued and returns `BodyStatusContinue`, whether an operation is in flight or not.

`HoldsForWork` is what a request that waits for an operation is to look like.  The events of a
request are numbered by nothing but their order, so the run is any order of the operation's
completion and of the return of the callback, and in none of them is the request held.
-/

namespace Luwes.Sahl

open LabelledRun History

/-! ## What is expected -/

/-- The event applies a queued mutation. -/
def Obs.isMutation : Obs → Bool
  | .call c => c.isMutation
  | _ => false

/-- The call queues a request header. -/
def UserCall.queuesHeader : UserCall → Bool
  | .setRequestHeader _ _ => true
  | _ => false

/-- The call queues a metadata or metric update. -/
def UserCall.queuesMutation : UserCall → Bool
  | .setMetadata _ _ _ | .incrementCounter _ _ _ | .recordHistogram _ _ _ => true
  | _ => false

/-- The handler has started an operation from `OnRequestBody`, and `OnRequestBody` has returned. -/
def StartsWork (tr : List Obs) : Prop :=
  (∃ op, .started (.worker .onRequestBody) op ∈ tr) ∧ ∃ st, .returned (.requestBody true st) ∈ tr

/-- No local response has been sent. -/
def Unanswered (tr : List Obs) : Prop := ∀ o ∈ tr, o.isResponse = false

/-- The request waits for the operation and goes on once with everything applied once. -/
structure HoldsForWork (s : State) : Prop where
  /-- `OnRequestBody` keeps the request paused. -/
  pauses : ∀ st, .returned (.requestBody true st) ∈ s.trace → st.resumes = false
  /-- `ContinueRequest` is called after an operation has completed. -/
  afterWork : Always (fun pre o => o.isContinue = true → ∃ op, .completed op ∈ pre) s.trace
  /-- It is called exactly once unless a local response is sent, and then not at all. -/
  continuesOnce : s.Settled → Unanswered s.trace → s.trace.countP Obs.isContinue = 1
  answered : ¬ Unanswered s.trace → s.trace.countP Obs.isContinue = 0
  /-- Every mutation is applied exactly once. -/
  headersOnce : s.Settled → Unanswered s.trace → ∀ who id c, .user who id c ∈ s.trace →
    c.queuesHeader = true → (appliedHeaders s.trace).count id = 1
  mutationsOnce : s.Settled → Unanswered s.trace → ∀ who id c, .user who id c ∈ s.trace →
    c.queuesMutation = true → (appliedMutations s.trace).count id = 1
  routeCacheOnce : s.Settled → Unanswered s.trace → ∀ who id,
    .user who id .clearRouteCache ∈ s.trace → s.trace.count (.call .clearRouteCache) = 1
  /-- It is applied before the request goes on. -/
  beforeResume : Always (fun pre o => o.isMutation = true → ∀ o' ∈ pre, o'.releases = false) s.trace

/-! ## What happens -/

namespace State

/-- `OnRequestBody` of a body-aware filter never keeps the end of the body back. -/
def ContinuesAtEnd (s : State) : Prop :=
  ∀ st, .returned (.requestBody true st) ∈ s.trace → st = .statusContinue

lemma continuesAtEnd_step {s s' : State} {l : Label} (hI : s.ContinuesAtEnd)
    (h : s.step l = some s') : s'.ContinuesAtEnd := by
  intro st hst
  rcases (step_moves h).mem_trace hst with hold | ⟨-, hend, -⟩ | ⟨-, -, hst⟩ | ⟨-, hst⟩
  · exact hI st hold
  · simp at hend
  · exact hst
  · exact hst

end State

/-! ## Whole runs -/

/-- **No asynchronous work holds a request back in `OnRequestBody`.**  In every run in which the
handler of a body-aware filter starts an operation from `OnRequestBody`, the callback lets the
request go on, whenever the operation completes. -/
theorem not_holdsForWork (r : ℕ) (d : FilterDef) (ls : List State.Label) (s : State)
    (hrun : run State.step (State.new r d) ls = some s) (hwork : StartsWork s.trace) :
    ¬ HoldsForWork s := by
  intro hholds
  obtain ⟨-, st, hst⟩ := hwork
  have hnew : (State.new r d).ContinuesAtEnd := by simp [State.ContinuesAtEnd, State.new]
  have hcontinues := run_invariant (fun _ _ _ => State.continuesAtEnd_step) hnew hrun
  have hpauses := hholds.pauses st hst
  rw [hcontinues st hst] at hpauses
  simp [BodyStatus.resumes] at hpauses

/-- A body-aware handler that sets a header and asks the authorization service. -/
def authBody : FilterDef where
  handler := .call (.setRequestHeader (ascii "x-checked") (ascii "1")) (askAuth fun _ _ _ => .ret)
  bodyAware := true

/-- The body comes in one piece, and the callout completes after `OnRequestBody` has returned. -/
def bodyThenCallout : List State.Label :=
  [.requestHeaders false, .requestBody true, .worker {}, .worker {}, .worker {}, .worker {},
    .calloutDone 0 .success [] [], .worker {}]

/-- `OnRequestBody` lets the request go while the callout is in flight; the header is applied then
and again when the callout completes. -/
theorem authBody_not_held :
    (¬ ∀ (r : ℕ) (d : FilterDef) (ls : List State.Label) (s : State), d.bodyAware = true →
      run State.step (State.new r d) ls = some s → StartsWork s.trace → HoldsForWork s) ∧
    ∃ s, run State.step (State.new 0 authBody) bodyThenCallout = some s ∧
      appliedHeaders s.trace = [⟨0, 0⟩, ⟨0, 0⟩] := by
  refine ⟨fun h => ?_, _, rfl, by decide⟩
  have hholds := h 0 authBody bodyThenCallout _ rfl rfl
    ⟨⟨.callout, by decide⟩, .statusContinue, by decide⟩
  have hpauses := hholds.pauses .statusContinue (by decide)
  simp [BodyStatus.resumes] at hpauses

/-- The result applied to that run. -/
theorem not_holdsForWork_authBody :
    ∃ s, run State.step (State.new 0 authBody) bodyThenCallout = some s ∧ ¬ HoldsForWork s :=
  ⟨_, rfl, not_holdsForWork 0 authBody bodyThenCallout _ rfl
    ⟨⟨.callout, by decide⟩, .statusContinue, by decide⟩⟩

end Luwes.Sahl
