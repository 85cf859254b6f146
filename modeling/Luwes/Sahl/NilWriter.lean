import Luwes.Sahl.Observer
import Luwes.Sahl.Shape

/-!
# Which callbacks have a Writer

`OnRequestHeaders` makes the Writer, and a response may come before it: an earlier filter, or the
host, answers the stream, and `OnResponseHeaders` is the first callback this filter sees.
`OnLocalReply`, `OnStreamComplete` and `OnDestroy` look whether there is a Writer.  `OnResponseHeaders`
and `OnResponseBody` hand `f.writer` to the observer as it is.

So the observer always has a Writer in exactly the runs in which no response callback comes before
`OnRequestHeaders`.  The callbacks themselves never go through a nil pointer, in any run.
-/

namespace Luwes.Sahl

open LabelledRun

/-- The callbacks that go through the Writer after their user code has returned. -/
def Callback.usesWriter : Callback → Bool
  | .onRequestHeaders | .onRequestBody | .onHttpCalloutDone | .onHttpStreamComplete
  | .onHttpStreamReset => true
  | .onResponseHeaders | .onResponseBody _ | .onHttpStreamEvent => false

namespace State

/-- In this step a callback, or the scheduled flush, goes through `f.writer`.  A guard of the source
that comes first is a conjunct here; `OnRequestHeaders` goes through the Writer it has just made, and
the handler and the observer are given the pointer as it is.  The steps have no other place where they
look into the Writer or change it (`leavesWriter_of_not_uses`). -/
def usesWriter (s : State) : Label → Bool
  | .requestHeaders _ | .requestBody _ | .requestTrailers | .responseHeaders _ | .responseBody _ _ =>
    false
  | .localReply details => s.hasWriter && details.len > 0
  | .streamComplete => s.hasWriter
  | .destroy => s.hasWriter
  | .calloutDone id _ _ _ => id ∈ s.callouts && !s.streamDone && s.hasWriter
  | .streamEvent ev => !(ev.isFinal && s.streamDone) && s.hasWriter
  | .task i _ => s.tasks[i]? = some .flush
  | .worker _ =>
    match s.stack with
    | ⟨.prog .ret, cb⟩ :: _ => cb.usesWriter
    | _ => false
  | .goroutine _ => false

/-- In this step a callback goes through `f.req`: `OnDestroy`, behind its guard. -/
def usesRequest (s : State) : Label → Bool
  | .destroy => s.hasReq
  | _ => false

/-- The step neither looks into the Writer nor changes it: with any other it does the same, and leaves
that one. -/
def LeavesWriter (s : State) (l : Label) : Prop :=
  ∀ w, (s.setWriter w).step l = (s.step l).map fun s' => s'.setWriter w

/-- The filter's own code runs in this step, and no user code, on the Writer that it has found.  The
goroutine is given the Writer itself, and keeps it when the filter has given it away. -/
def ofFilter (s : State) : Label → Bool
  | .requestHeaders _ | .goroutine _ => false
  | .worker _ =>
    match s.stack with
    | ⟨.prog .ret, _⟩ :: _ => true
    | _ => false
  | _ => true

/-- No callback goes through a nil pointer in this step, and without a Writer what the filter does depends on
none. -/
def NilSafe (s : State) (l : Label) : Prop :=
  (s.usesWriter l = true → s.hasWriter = true) ∧ (s.usesRequest l = true → s.hasReq = true) ∧
    (s.ofFilter l = true → s.hasWriter = false → s.LeavesWriter l)

/-- The observer has been given a Writer each time. -/
def ObserverHasWriter (s : State) : Prop :=
  ∀ cb chunk ctx hasWriter, .observed cb chunk ctx hasWriter ∈ s.trace → hasWriter = true

/-- The label is a response callback. -/
def Label.isResponse : Label → Bool
  | .responseHeaders _ | .responseBody _ _ => true
  | _ => false

/-- The step runs the observer. -/
def observes (s : State) (l : Label) : Bool := l.isResponse && s.filterDef.responseFn.isSome

/-- The step does not run the observer before `OnRequestHeaders`. -/
def AfterRequest (s : State) (l : Label) : Prop :=
  s.observes l = true → s.phase ≠ .awaitingHeaders

instance (s : State) : DecidablePred s.AfterRequest := fun l =>
  inferInstanceAs (Decidable (s.observes l = true → s.phase ≠ .awaitingHeaders))

/-! ## What a step does without looking into the Writer -/

section

variable (s : State) (w : Writer)

lemma onResponseBodyTail_setWriter (endStream : Bool) :
    (s.setWriter w).onResponseBodyTail endStream = (s.onResponseBodyTail endStream).setWriter w := by
  rw [onResponseBodyTail, onResponseBodyTail, apply_ite (fun s' : State => s'.setWriter w)]
  rfl

lemma finish_setWriter {cb : Callback} (hcb : cb.usesWriter = false) :
    (s.setWriter w).finish cb = (s.finish cb).setWriter w := by
  cases cb with
  | onResponseHeaders | onHttpStreamEvent => rfl
  | onResponseBody endStream => exact s.onResponseBodyTail_setWriter w endStream
  | _ => cases hcb

lemma onRequestBody_setWriter (endStream : Bool) :
    (s.setWriter w).onRequestBody endStream = (s.onRequestBody endStream).setWriter w := by
  cases endStream <;> cases hbody : s.filterDef.bodyAware <;>
    simp [onRequestBody, setWriter, Ledger.setWriter, hbody, push, emit, ret, Ledger.emit]

lemma onResponseHeaders_setWriter (headers : HeaderMap) :
    (s.setWriter w).onResponseHeaders headers = (s.onResponseHeaders headers).setWriter w := by
  cases hfn : s.filterDef.responseFn <;> cases hmutable : s.filterDef.mutableResponse <;>
    simp [onResponseHeaders, setWriter, Ledger.setWriter, hfn, hmutable, callObserver, push, emit, ret,
      Ledger.emit]

lemma onResponseBody_setWriter (body : List UnsafeEnvoyBuffer) (endStream : Bool) :
    (s.setWriter w).onResponseBody body endStream = (s.onResponseBody body endStream).setWriter w := by
  cases hfn : s.filterDef.responseFn with
  | none =>
      simp only [onResponseBody, setWriter, emit, hfn]
      exact (s.emit [.responseBody body endStream]).onResponseBodyTail_setWriter w endStream
  | some fn =>
      simp only [onResponseBody, setWriter, emit, hfn]
      rfl

lemma onLocalReply_setWriter {details : UnsafeEnvoyBuffer}
    (hno : (s.hasWriter && details.len > 0) = false) :
    (s.setWriter w).onLocalReply details = (s.onLocalReply details).setWriter w := by
  simp only [onLocalReply, setWriter, hno]
  rfl

lemma onStreamComplete_setWriter (hno : s.hasWriter = false) :
    (s.setWriter w).onStreamComplete = s.onStreamComplete.setWriter w := by
  simp only [onStreamComplete, cancelGo, setWriter, hno, Bool.and_false]
  rfl

lemma onHttpCalloutDone_setWriter (hno : s.streamDone = true ∨ s.hasWriter = false)
    (result : HttpCalloutResult) (headers : HeaderSlice) (body : List UnsafeEnvoyBuffer) :
    (s.setWriter w).onHttpCalloutDone result headers body =
      (s.onHttpCalloutDone result headers body).setWriter w := by
  rcases hno with hno | hno <;> simp [onHttpCalloutDone, hno, setWriter]

lemma onHttpStream_setWriter {ev : HTTPStreamEvent}
    (hno : (ev.isFinal = true ∧ s.streamDone = true) ∨ s.hasWriter = false) :
    (s.setWriter w).onHttpStream ev = (s.onHttpStream ev).setWriter w := by
  rcases hno with ⟨hfinal, hno⟩ | hno
  · cases ev with
    | headers | data | trailers => cases hfinal
    | complete => simp [onHttpStream, onHttpStreamComplete, hno, setWriter]
    | reset => simp [onHttpStream, onHttpStreamReset, hno, setWriter]
  · cases ev <;>
      simp [onHttpStream, onHttpStreamEvent, onHttpStreamComplete, onHttpStreamReset, hno, setWriter]

lemma runDoCallout_setWriter (c : Choice) (ch : ℕ) (req : HTTPCalloutRequest) :
    (s.setWriter w).runDoCallout c ch req = (s.runDoCallout c ch req).map fun s' => s'.setWriter w := by
  by_cases hinit : c.init = .success <;> by_cases hid : c.id ∈ s.calloutIds <;>
    simp_all [runDoCallout, setWriter, calloutIds, emit, Ledger.emit, Ledger.setWriter]

lemma runTask_setWriter {i : ℕ} (hno : s.tasks[i]? ≠ some .flush) (c : Choice) :
    (s.setWriter w).runTask i c = (s.runTask i c).map fun s' => s'.setWriter w := by
  cases htask : s.tasks[i]? with
  | none => simp only [runTask, setWriter, htask, Option.map_none]
  | some t =>
      cases t with
      | flush => exact absurd htask hno
      | doCallout ch req =>
          simp only [runTask, setWriter, htask]
          exact runDoCallout_setWriter { s with tasks := s.tasks.eraseIdx i } w c ch req

end

/-- **The steps that use the Writer** are all there are: any other leaves it. -/
lemma leavesWriter_of_not_uses {s : State} {l : Label} (hl : s.ofFilter l = true)
    (huses : s.usesWriter l = false) : s.LeavesWriter l := by
  intro w
  have hite {p : Prop} [Decidable p] {x y : Option State} (h : x = y.map fun s' => s'.setWriter w) :
      (if p then x else none) = (if p then y else none).map fun s' => s'.setWriter w := by
    split_ifs
    · exact h
    · rfl
  cases l with
  | requestHeaders | goroutine => cases hl
  | requestBody endStream =>
      let t : State := { s with phase := if endStream then .ended else .receiving }
      exact hite (congrArg some (t.onRequestBody_setWriter w endStream))
  | requestTrailers | destroy => exact hite rfl
  | responseHeaders headers => exact hite (congrArg some (s.onResponseHeaders_setWriter w headers))
  | responseBody body endStream => exact hite (congrArg some (s.onResponseBody_setWriter w body endStream))
  | localReply details => exact hite (congrArg some (s.onLocalReply_setWriter w huses))
  | streamComplete => exact hite (congrArg some (s.onStreamComplete_setWriter w huses))
  | calloutDone id result headers body =>
      refine hite ?_
      change (if id ∈ s.callouts then _ else _) = (if id ∈ s.callouts then _ else _ : Option State).map _
      split_ifs with hid
      · have hno : s.streamDone = true ∨ s.hasWriter = false := by
          simpa [usesWriter, hid, or_iff_not_imp_left] using huses
        let t : State := { s with callouts := s.callouts.erase id }.emit [.completed .callout]
        exact congrArg some (t.onHttpCalloutDone_setWriter w hno result headers body)
      · rw [Option.map_map]
        rfl
  | streamEvent ev =>
      have hno : (ev.isFinal = true ∧ s.streamDone = true) ∨ s.hasWriter = false := by
        simpa [usesWriter, or_iff_not_imp_left] using huses
      refine hite (hite ?_)
      split_ifs
      · let t : State := { s with streams := s.streams.erase ev.streamID }.emit [.completed .stream]
        exact congrArg some (t.onHttpStream_setWriter w hno)
      · exact congrArg some (s.onHttpStream_setWriter w hno)
  | task i c =>
      have hno : s.tasks[i]? ≠ some .flush := by simpa [usesWriter] using huses
      exact hite (s.runTask_setWriter w hno c)
  | worker c =>
      cases hstack : s.stack with
      | nil => simp [step, hstack, setWriter]
      | cons f rest =>
          obtain ⟨code, cb⟩ := f
          obtain rfl : code = .prog .ret := by
            rw [ofFilter, hstack] at hl
            split at hl
            · rename_i heq
              simpa using (congrArg (fun x => x.head?.map Frame.code) heq)
            · cases hl
          have hcb : cb.usesWriter = false := by simpa [usesWriter, hstack] using huses
          simp only [step, setWriter, hstack, workerStep, Option.map_some]
          exact congrArg some (finish_setWriter { s with stack := rest } w hcb)

/-! ## The invariant -/

/-- The shape, and: a destroyed filter has no activation left. -/
structure Observing (s : State) : Prop where
  shape : s.Shape
  destroyed : s.destroyed = true → s.stack = []

lemma delivering_live {s : State} (h : s.delivering = true) : s.destroyed = false := by
  simp only [delivering, Bool.and_eq_true, Bool.not_eq_true'] at h
  exact h.1

lemma destroyed_step {s s' : State} {l : Label} (hs : s.destroyed = true → s.stack = [])
    (h : Moves s l s') (hd : s'.destroyed = true) : s'.stack = [] := by
  have hlive : ∀ {b : Bool}, b = false → b = true → s'.stack = [] := by
    intro b hb hb'
    simp [hb] at hb'
  cases h with
  | headersHandled _ hacc | bodyHandled hacc | responseHeadersObserved _ _ hacc
  | responseBodyObserved _ _ _ hacc => exact hlive (accepting_live hacc).2 hd
  | calloutContinued _ _ _ _ _ hdel | streamEventRun _ _ hdel | streamEndRun _ _ _ hdel =>
      exact hlive (delivering_live hdel) hd
  | destroyed hidle => simpa [idle] using hidle
  | workerActs _ _ _ _ _ hstack _ _ _ hact =>
      rw [show _ = s.destroyed from hact.sameHost.destroyed] at hd
      simp [hs hd] at hstack
  | calloutReturned _ _ _ _ _ hstack | streamReturned _ _ _ _ _ hstack => simp [hs hd] at hstack
  | callbackFinished _ _ _ hstack =>
      rw [(finish_sameHost _ _).destroyed] at hd
      simp [hs hd] at hstack
  | goroutineActs _ _ _ _ _ _ hact =>
      rw [show _ = s.stack from hact.sameHost.stack]
      exact hs (hact.sameHost.destroyed.symm.trans hd)
  | _ => exact hs hd

lemma observing_step {s s' : State} {l : Label} (hI : s.Observing) (h : s.step l = some s') :
    s'.Observing where
  shape := shape_step hI.shape h
  destroyed := destroyed_step hI.destroyed (step_moves h)

lemma Observing.hasWriter_of_frame {s : State} (hI : s.Observing) {f : Frame} (hf : f ∈ s.stack)
    (huses : f.cb.usesWriter = true) : s.hasWriter = true := by
  have hlive : s.destroyed = false := by
    by_contra hd
    simp [hI.destroyed (by simpa using hd)] at hf
  have hphase : s.phase ≠ .awaitingHeaders := by
    intro hphase
    have hobs := ((hI.shape.fresh hphase).observers f hf).1
    revert huses hobs
    cases f.cb <;> simp [Callback.usesWriter, Callback.isObserver]
  rw [hI.shape.hasWriter hphase, hlive]
  rfl

/-- **No nil pointer.**  In a reachable state no callback goes through a nil Writer or Request. -/
lemma Observing.nilSafe {s s' : State} {l : Label} (hI : s.Observing) (h : s.step l = some s') :
    s.NilSafe l := by
  have hwriter : s.usesWriter l = true → s.hasWriter = true := by
    intro huses
    cases l with
    | task i c =>
        have htask : s.tasks[i]? = some .flush := by simpa [usesWriter] using huses
        obtain ⟨⟨-, hlive⟩, -⟩ := by simpa [step] using h
        have hphase : s.phase ≠ .awaitingHeaders := by
          intro hphase
          simp [(hI.shape.fresh hphase).tasks] at htask
        rw [hI.shape.hasWriter hphase, hlive]
        rfl
    | worker c =>
        cases hstack : s.stack with
        | nil => simp [usesWriter, hstack] at huses
        | cons f rest =>
            have hf : f ∈ s.stack := by simp [hstack]
            apply hI.hasWriter_of_frame hf
            obtain ⟨code, cb⟩ := f
            rw [usesWriter, hstack] at huses
            split at huses
            · rename_i heq
              obtain ⟨⟨-, rfl⟩, -⟩ := by simpa using heq
              exact huses
            · simp at huses
    | _ => simp_all [usesWriter]
  refine ⟨hwriter, fun huses => ?_, fun hl hnone => leavesWriter_of_not_uses hl ?_⟩
  · cases l <;> simp_all [usesRequest]
  · by_contra huses
    simp [hwriter (by simpa using huses)] at hnone

/-! ## The Writer of the observer -/

/-- Before a filter is destroyed it has a Writer exactly when `OnRequestHeaders` has come. -/
lemma Observing.hasWriter_iff {s : State} (hI : s.Observing) (hlive : s.destroyed = false) :
    s.hasWriter = true ↔ s.phase ≠ .awaitingHeaders := by
  constructor
  · intro hwriter hphase
    simp [(hI.shape.fresh hphase).hasWriter] at hwriter
  · intro hphase
    rw [hI.shape.hasWriter hphase, hlive]
    rfl

/-- A response callback of a filter with an observer calls it once, with the Writer there is. -/
lemma response_trace {s s' : State} {l : Label} (h : s.step l = some s') (hl : s.observes l = true) :
    ∃ pre cb chunk ctx, s'.trace = s.trace ++ pre ++ [.observed cb chunk ctx s.hasWriter] ∧
      ∀ cb chunk ctx w, .observed cb chunk ctx w ∉ pre := by
  obtain ⟨hresp, hobs⟩ : l.isResponse = true ∧ s.filterDef.responseFn.isSome = true := by
    simpa [observes] using hl
  obtain ⟨fn, hfn⟩ := Option.isSome_iff_exists.mp hobs
  cases l with
  | responseHeaders headers =>
      obtain ⟨-, rfl⟩ := by simpa [step] using h
      by_cases hmut : s.filterDef.mutableResponse
      · refine ⟨[.call (.removeResponseHeader (ascii "content-length"))], .onResponseHeaders,
          (s.respState.onResponseHeaders headers).chunk, (s.respState.onResponseHeaders headers).ctx,
          ?_, by simp⟩
        simp [onResponseHeaders, hfn, hmut, callObserver, push, emit, Ledger.emit]
      · refine ⟨[], .onResponseHeaders, (s.respState.onResponseHeaders headers).chunk,
          (s.respState.onResponseHeaders headers).ctx, ?_, by simp⟩
        simp [onResponseHeaders, hfn, hmut, callObserver, push, emit, Ledger.emit]
  | responseBody body endStream =>
      obtain ⟨-, rfl⟩ := by simpa [step] using h
      refine ⟨[.responseBody body endStream], .onResponseBody endStream,
        (s.respState.onResponseBody body endStream).chunk,
        (s.respState.onResponseBody body endStream).ctx, ?_, by simp⟩
      simp [onResponseBody, hfn, callObserver, push, emit, Ledger.emit]
  | _ => simp [Label.isResponse] at hresp

lemma other_observes {s s' : State} {l : Label} (h : s.step l = some s')
    (hl : s.observes l = false) : s'.ObserverHasWriter ↔ s.ObserverHasWriter := by
  have hm := step_moves h
  by_cases hresp : l.isResponse = true
  · have hfn : s.filterDef.responseFn = none := by simpa [observes, hresp] using hl
    cases hm with
    | responseHeadersPassed | responseBodyPassed => simp [ObserverHasWriter, Ledger.emit]
    | responseHeadersObserved _ _ _ hfn' | responseBodyObserved _ _ _ _ hfn' => simp [hfn] at hfn'
    | _ => simp [Label.isResponse] at hresp
  · obtain ⟨obs, htr, hobs⟩ := hm.emits
    have hnone : ∀ cb chunk ctx w, .observed cb chunk ctx w ∉ obs := by
      intro cb chunk ctx w hmem
      apply hresp
      rcases hobs _ hmem with ⟨headers, rfl, -⟩ | ⟨endStream, ⟨body, rfl⟩, -⟩ <;> rfl
    simp only [ObserverHasWriter, htr, List.mem_append, hnone, or_false]

/-- A step gives the observer a Writer exactly when it is no response that comes too early. -/
lemma observes_step {s s' : State} {l : Label} (hI : s.Observing) (h : s.step l = some s') :
    s'.ObserverHasWriter ↔ s.ObserverHasWriter ∧ s.AfterRequest l := by
  by_cases hl : s.observes l = true
  · obtain ⟨pre, cb, chunk, ctx, htr, hpre⟩ := response_trace h hl
    have hlive : s.destroyed = false := by
      cases l with
      | responseHeaders headers =>
          obtain ⟨hacc, -⟩ := by simpa [step] using h
          exact (accepting_live hacc).2
      | responseBody body endStream =>
          obtain ⟨hacc, -⟩ := by simpa [step] using h
          exact (accepting_live hacc).2
      | _ => simp [observes, Label.isResponse] at hl
    have hafter : s.AfterRequest l ↔ s.hasWriter = true := by
      rw [hI.hasWriter_iff hlive, AfterRequest]
      exact ⟨fun h => h hl, fun h _ => h⟩
    rw [hafter, ObserverHasWriter, htr]
    constructor
    · intro hall
      exact ⟨fun cb chunk ctx w hmem => hall cb chunk ctx w (by simp [hmem]),
        hall cb chunk ctx _ (by simp)⟩
    · rintro ⟨hold, hwriter⟩ cb chunk ctx w hmem
      rcases List.mem_append.mp hmem with hmem | hmem
      · rcases List.mem_append.mp hmem with hmem | hmem
        · exact hold cb chunk ctx w hmem
        · exact absurd hmem (hpre cb chunk ctx w)
      · obtain ⟨-, -, -, rfl⟩ := by simpa using hmem
        exact hwriter
  · rw [other_observes h (by simpa using hl)]
    exact (and_iff_left fun hl' => absurd hl' hl).symm

end State

/-! ## Whole runs -/

/-- What is promised about the Writer along a run: every call of the observer has one, and no callback
goes through a nil pointer. -/
structure NeverNil (r : ℕ) (d : FilterDef) (ls : List State.Label) (s : State) : Prop where
  observer : s.ObserverHasWriter
  callbacks : Along State.step State.NilSafe (State.new r d) ls

/-- **The exact condition.**  The promise is kept in exactly the runs in which no response callback runs
the observer before `OnRequestHeaders`. -/
theorem neverNil_iff (r : ℕ) (d : FilterDef) (ls : List State.Label) (s : State)
    (hrun : run State.step (State.new r d) ls = some s) :
    NeverNil r d ls s ↔ Along State.step State.AfterRequest (State.new r d) ls := by
  have hnew : (State.new r d).Observing :=
    ⟨State.shape_new r d, fun h => by simp [State.new] at h⟩
  have hsafe : Along State.step State.NilSafe (State.new r d) ls := by
    exact along_of_run (fun _ _ _ => State.observing_step) (fun _ _ _ => State.Observing.nilSafe)
      hnew hrun
  have hiff := run_iff_along (P := State.ObserverHasWriter) (fun _ _ _ => State.observing_step)
    (fun _ _ _ => State.observes_step) hnew hrun
  have hempty : (State.new r d).ObserverHasWriter := by simp [State.ObserverHasWriter, State.new]
  constructor
  · intro h
    exact (hiff.mp h.observer).2
  · intro h
    exact ⟨hiff.mpr ⟨hempty, h⟩, hsafe⟩

/-- A response that an earlier filter or the host has produced. -/
def answeredEarly : List State.Label :=
  [.localReply ⟨some (ascii "rbac_access_denied")⟩, .responseHeaders ⟨fun _ => none⟩]

/-- The observer of a response that comes before the request is called without a Writer. -/
theorem answeredEarly_nil :
    ¬ ∀ (r : ℕ) (d : FilterDef) (ls : List State.Label) (s : State),
      run State.step (State.new r d) ls = some s → NeverNil r d ls s := by
  intro h
  have hobs := (h 0 tapFilter answeredEarly _ rfl).observer
  exact absurd (hobs .onResponseHeaders _ _ false (.tail _ (.head _))) (by decide)

/-- The condition evaluated on a response that comes after its request. -/
theorem neverNil_iff_answered :
    ∃ s, run State.step (State.new 0 tapFilter) (responseInOneBuffer []) = some s ∧
      (NeverNil 0 tapFilter (responseInOneBuffer []) s ↔
        Along State.step State.AfterRequest (State.new 0 tapFilter) (responseInOneBuffer [])) :=
  ⟨_, rfl, neverNil_iff 0 tapFilter _ _ rfl⟩

end Luwes.Sahl
