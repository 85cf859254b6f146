import Luwes.Sahl.Hold

/-!
# Body-aware filters under the flow control of the host

A body-aware filter answers the headers with `HeadersStatusStopAllAndBuffer` and leaves its handler
to `OnRequestBody`.  The contract of `shared/api.go` next to that status says that neither
`OnRequestBody` nor `OnRequestTrailers` is called until the request is continued by hand.

`Hosted` puts that flow control around the filter.  The events of one request arrive in the order of
its shape; an event that arrives while the host has to keep it back is queued, and goes to the
filter once the filter has called `ContinueRequest`.  Everything else the host does is left as free
as it is in `State.step`.

The handler is what would call `ContinueRequest`, and it waits for the body that waits for
`ContinueRequest`.  So no handler ever runs before its request is released, and without an observer
the request is never released at all.
-/

namespace Luwes.Sahl

open LabelledRun History

/-! ## The host -/

/-- The shapes a request has on the wire; `n` counts the body chunks that do not end the stream. -/
inductive RequestShape
  /-- The headers end the stream. -/
  | headersOnly
  /-- A body chunk ends the stream. -/
  | body (n : ℕ)
  /-- Trailers end the stream. -/
  | bodyThenTrailers (n : ℕ)
  deriving DecidableEq, Repr

namespace RequestShape

/-- The `endOfStream` argument of `OnRequestHeaders`. -/
def endOfStream : RequestShape → Bool
  | .headersOnly => true
  | _ => false

/-- The events after the headers. -/
def data : RequestShape → List State.Label
  | .headersOnly => []
  | .body n => List.replicate n (.requestBody false) ++ [.requestBody true]
  | .bodyThenTrailers n => List.replicate n (.requestBody false) ++ [.requestTrailers]

/-- All events of the request, in order. -/
def events (shape : RequestShape) : List State.Label :=
  .requestHeaders shape.endOfStream :: shape.data

end RequestShape

/-- How an event of the filter changes whether the host keeps the body and the trailers back. -/
def withholdsAfter (held : Bool) : Obs → Bool
  | .returned (.requestHeaders st) => st.stopsAll
  | .call .continueRequest => false
  | _ => held

/-- The host has to keep the body and the trailers back. -/
def withholds (tr : List Obs) : Bool := tr.foldl withholdsAfter false

/-- The event is a callback of the request. -/
def State.Label.isRequestEvent : State.Label → Bool
  | .requestHeaders _ | .requestBody _ | .requestTrailers => true
  | _ => false

/-- No user code of the filter is running, and nothing it started is in flight. -/
structure State.Settled (s : State) : Prop where
  stack : s.stack = []
  goroutine : s.goroutine = none
  tasks : s.tasks = []
  callouts : s.callouts = []
  streams : s.streams = []

/-- One request of a filter together with the host's side of it. -/
structure Hosted where
  filter : State
  /-- The events that have not arrived. -/
  remaining : List State.Label
  /-- The events that have arrived and are kept back. -/
  withheld : List State.Label

namespace Hosted

/-- A request of the given shape before its headers. -/
def new (r : ℕ) (d : FilterDef) (shape : RequestShape) : Hosted where
  filter := State.new r d
  remaining := shape.events
  withheld := []

/-- What happens next. -/
inductive Label
  /-- An event arrives. -/
  | arrive
  /-- The host delivers the first event it has kept back. -/
  | resume
  /-- Anything that is not an event of the request. -/
  | other (l : State.Label)

/-- The filter is called with an event of the request, or moves by itself. -/
def deliver (h : Hosted) (l : State.Label) : Option Hosted :=
  (h.filter.step l).map fun s => { h with filter := s }

/-- One step.  An event that arrives behind one that is kept back is kept back too. -/
def step (h : Hosted) : Label → Option Hosted
  | .arrive =>
    match h.remaining with
    | [] => none
    | e :: rest =>
      if withholds h.filter.trace || !h.withheld.isEmpty then
        some { h with remaining := rest, withheld := h.withheld ++ [e] }
      else { h with remaining := rest }.deliver e
  | .resume =>
    match h.withheld with
    | [] => none
    | e :: rest =>
      if withholds h.filter.trace then none else { h with withheld := rest }.deliver e
  | .other l => if l.isRequestEvent then none else h.deliver l

/-- Every event of the request has arrived, the host keeps none back that it may deliver, and the
filter has settled. -/
structure Complete (h : Hosted) : Prop where
  remaining : h.remaining = []
  withheld : h.withheld = [] ∨ withholds h.filter.trace = true
  settled : h.filter.Settled

end Hosted

/-! ## The contract of body-aware filters -/

/-- The handler is called. -/
def Obs.isInvoked : Obs → Bool
  | .invoked _ => true
  | _ => false

/-- The request goes on to the upstream. -/
def Obs.releases : Obs → Bool
  | .call .continueRequest => true
  | .returned (.requestHeaders st) => !st.stops
  | o => o.resumes

/-- The handler has run exactly once, before the request went on, and the request has gone on or has
been answered. -/
structure RunsOnce (tr : List Obs) : Prop where
  once : tr.countP Obs.isInvoked = 1
  beforeRelease : Always (fun pre o => o.isInvoked = true → ∀ o' ∈ pre, o'.releases = false) tr
  settled : ∃ o ∈ tr, o.releases = true ∨ o.endsHold = true

/-- Every complete run of a request of this shape ends so. -/
def RunsOnceOn (r : ℕ) (d : FilterDef) (shape : RequestShape) : Prop :=
  ∀ ls h, run Hosted.step (Hosted.new r d shape) ls = some h → h.Complete →
    RunsOnce h.filter.trace

/-! ## What the host keeps back -/

lemma withholds_append (xs ys : List Obs) :
    withholds (xs ++ ys) = ys.foldl withholdsAfter (withholds xs) := by
  simp [withholds]

/-- What neither answers the headers nor continues the request leaves the host as it was. -/
lemma foldl_withholdsAfter {obs : List Obs} (b : Bool)
    (hheaders : ∀ st, Obs.returned (.requestHeaders st) ∉ obs)
    (hcontinue : Obs.call .continueRequest ∉ obs) : obs.foldl withholdsAfter b = b := by
  induction obs generalizing b with
  | nil => rfl
  | cons o obs ih =>
      have ho : withholdsAfter b o = b := by
        rcases o with c | _ | _ | _ | _ | _ | _ | _ | r
        · cases c <;> first | rfl | simp at hcontinue
        all_goals first | rfl | skip
        cases r <;> first | rfl | skip
        rename_i st
        simpa using hheaders st
      rw [List.foldl_cons, ho]
      exact ih b (fun st hst => hheaders st (List.mem_cons_of_mem _ hst))
        fun hc => hcontinue (List.mem_cons_of_mem _ hc)

namespace State

/-- A body-aware filter has never run its handler from `OnRequestHeaders`. -/
def NoHeadersFrame (s : State) : Prop :=
  s.filterDef.bodyAware = true ∧ .onRequestHeaders ∉ s.callbacks

lemma noHeadersFrame_step {s s' : State} {l : Label} (hI : s.NoHeadersFrame)
    (h : Moves s l s') : s'.NoHeadersFrame := by
  obtain ⟨hbody, hframes⟩ := hI
  refine ⟨by rw [h.filterDef_eq, hbody], fun hmem => ?_⟩
  rcases h.mem_callbacks hmem with hold | ⟨-, -, hb⟩
  · exact hframes hold
  · simp [hbody] at hb

/-- Once the headers have been answered, the host keeps the rest back until `ContinueRequest`. -/
structure HeldBack (s : State) : Prop where
  frames : s.NoHeadersFrame
  held : s.phase ≠ .awaitingHeaders →
    withholds s.trace = true ∨ .call .continueRequest ∈ s.trace
  invoked : Always (fun pre o => o.isInvoked = true → .call .continueRequest ∈ pre) s.trace

lemma heldBack_new (r : ℕ) {d : FilterDef} (hd : d.bodyAware = true) :
    (State.new r d).HeldBack where
  frames := ⟨hd, by simp [State.new, callbacks]⟩
  held h := absurd rfl h
  invoked := by simp [State.new]

lemma held_step {s s' : State} {l : Label} (hI : s.HeldBack) (h : Moves s l s')
    (hphase : s'.phase ≠ .awaitingHeaders) :
    withholds s'.trace = true ∨ .call .continueRequest ∈ s'.trace := by
  have hbody := hI.frames.1
  by_cases hp : s.phase = .awaitingHeaders
  · -- The step that leaves this phase is the one that answers the headers.
    cases h with
    | headersDeferred => exact .inl (by simp [Ledger.emit, withholds_append, withholdsAfter,
        HeadersStatus.stopsAll])
    | headersHandled _ _ _ hb => simp [hbody] at hb
    | bodyHandled _ hp' | bodyBuffered _ hp' | bodyPassed _ _ _ hp' | trailersPassed _ hp' =>
        simp [hp] at hp'
    | workerActs _ _ _ _ _ _ _ _ _ hact => exact absurd (hact.sameHost.phase.trans hp) hphase
    | goroutineActs _ _ _ _ _ _ hact => exact absurd (hact.sameHost.phase.trans hp) hphase
    | callbackFinished c cb rest =>
        exact absurd ((finish_sameHost { s with stack := rest } cb).phase.trans hp) hphase
    | _ => exact absurd hp hphase
  · obtain ⟨obs, htr, hobs⟩ := h.emits
    rw [htr, withholds_append]
    by_cases hcontinue : Obs.call .continueRequest ∈ obs
    · exact .inr (List.mem_append_right _ hcontinue)
    · have hheaders : ∀ st, Obs.returned (.requestHeaders st) ∉ obs := by
        intro st hst
        rcases hobs _ hst with ⟨hp', -⟩ | ⟨⟨c, rest, -, hstack⟩, -⟩
        · exact hp hp'
        · exact hI.frames.2 (by simp [callbacks, hstack])
      rw [foldl_withholdsAfter _ hheaders hcontinue]
      exact (hI.held hp).imp_right (List.mem_append_left _)

/-- A step keeps the invariant when the body comes only to a host that may deliver it. -/
lemma heldBack_step {s s' : State} {l : Label} (hI : s.HeldBack) (h : s.step l = some s')
    (hbody : l = .requestBody true → withholds s.trace = false) : s'.HeldBack := by
  have hm := step_moves h
  refine ⟨noHeadersFrame_step hI.frames hm, held_step hI hm, ?_⟩
  obtain ⟨obs, htr, hobs⟩ := hm.emits
  rw [htr, always_append]
  refine ⟨hI.invoked, always_of_forall fun o ho pre hinvoked => ?_⟩
  cases o with
  | invoked cb =>
      rcases hobs _ ho with ⟨-, hb⟩ | ⟨-, hl, hp⟩
      · simp [hI.frames.1] at hb
      · rcases hI.held (by simp [hp]) with hheld | hcontinue
        · simp [hbody hl] at hheld
        · exact List.mem_append_left _ hcontinue
  | _ => simp [Obs.isInvoked] at hinvoked

end State

/-! ## Runs of the host -/

namespace Hosted

/-- All that a step of the host can do. -/
inductive Moves (h : Hosted) : Label → Hosted → Prop
  | queued (e : State.Label) (rest : List State.Label) (hrem : h.remaining = e :: rest)
      (hheld : withholds h.filter.trace = true ∨ h.withheld ≠ []) :
      Moves h .arrive { h with remaining := rest, withheld := h.withheld ++ [e] }
  | arrived (e : State.Label) (rest : List State.Label) (s : State) (hrem : h.remaining = e :: rest)
      (hheld : withholds h.filter.trace = false) (hwith : h.withheld = [])
      (hs : h.filter.step e = some s) : Moves h .arrive { h with filter := s, remaining := rest }
  | resumed (e : State.Label) (rest : List State.Label) (s : State) (hwith : h.withheld = e :: rest)
      (hheld : withholds h.filter.trace = false) (hs : h.filter.step e = some s) :
      Moves h .resume { h with filter := s, withheld := rest }
  | other (e : State.Label) (s : State) (he : e.isRequestEvent = false)
      (hs : h.filter.step e = some s) : Moves h (.other e) { h with filter := s }

theorem step_moves {h h' : Hosted} {l : Label} (hstep : h.step l = some h') : Moves h l h' := by
  cases l with
  | arrive =>
      cases hrem : h.remaining with
      | nil => simp [step, hrem] at hstep
      | cons e rest =>
          by_cases hheld : withholds h.filter.trace || !h.withheld.isEmpty
          · obtain rfl : _ = h' := by simpa [step, hrem, hheld] using hstep
            exact .queued e rest hrem (by simpa using hheld)
          · obtain ⟨s, hs, rfl⟩ := by simpa [step, hrem, hheld, deliver] using hstep
            obtain ⟨hopen, hwith⟩ : withholds h.filter.trace = false ∧ h.withheld = [] := by
              simpa using hheld
            exact .arrived e rest s hrem hopen hwith hs
  | resume =>
      cases hwith : h.withheld with
      | nil => simp [step, hwith] at hstep
      | cons e rest =>
          by_cases hheld : withholds h.filter.trace
          · simp [step, hwith, hheld] at hstep
          · obtain ⟨s, hs, rfl⟩ := by simpa [step, hwith, hheld, deliver] using hstep
            exact .resumed e rest s hwith (by simpa using hheld) hs
  | other e =>
      by_cases he : e.isRequestEvent
      · simp [step, he] at hstep
      · obtain ⟨s, hs, rfl⟩ := by simpa [step, he, deliver] using hstep
        exact .other e s (by simpa using he) hs

lemma step_filter {h h' : Hosted} {l : Label} (hstep : h.step l = some h') :
    h'.filter = h.filter ∨ ∃ e, h.filter.step e = some h'.filter ∧
      (e.isRequestEvent = true → withholds h.filter.trace = false) := by
  cases step_moves hstep with
  | queued => exact .inl rfl
  | arrived e _ _ _ hheld _ hs | resumed e _ _ _ hheld hs => exact .inr ⟨e, hs, fun _ => hheld⟩
  | other e _ he hs => exact .inr ⟨e, hs, fun hreq => by simp [he] at hreq⟩

/-- Under the flow control of the host a body-aware handler runs only after `ContinueRequest`. -/
lemma heldBack_run {r : ℕ} {d : FilterDef} (hd : d.bodyAware = true) {shape : RequestShape}
    {ls : List Label} {h : Hosted} (hrun : run step (new r d shape) ls = some h) :
    h.filter.HeldBack := by
  refine run_invariant (I := fun h : Hosted => h.filter.HeldBack) ?_ (State.heldBack_new r hd) hrun
  intro h l h' hI hstep
  rcases step_filter hstep with heq | ⟨e, he, hwithholds⟩
  · rwa [heq]
  · exact State.heldBack_step hI he fun hl => hwithholds (by simp [hl, State.Label.isRequestEvent])

/-- While the host has to keep events back, those that arrive are queued. -/
lemma run_arrive (h : Hosted) (hheld : withholds h.filter.trace = true) :
    run step h (List.replicate h.remaining.length .arrive) =
      some { h with remaining := [], withheld := h.withheld ++ h.remaining } := by
  obtain ⟨s, remaining, withheld⟩ := h
  induction remaining generalizing withheld with
  | nil => simp
  | cons e rest ih =>
      have hstep : step ⟨s, e :: rest, withheld⟩ .arrive = some ⟨s, rest, withheld ++ [e]⟩ := by
        simp only at hheld
        simp [step, hheld]
      simp only [List.length_cons, List.replicate_succ, run, hstep, Option.bind_some]
      simpa using ih (withheld ++ [e]) hheld

lemma exists_complete (r : ℕ) {d : FilterDef} (hd : d.bodyAware = true) (shape : RequestShape) :
    ∃ ls h, run step (new r d shape) ls = some h ∧ h.Complete := by
  obtain ⟨s, hs, htr, hsettled⟩ : ∃ s : State,
      (State.new r d).step (.requestHeaders shape.endOfStream) = some s ∧
        s.trace = [.returned (.requestHeaders .statusStopAllAndBuffer)] ∧ s.Settled := by
    refine ⟨_, rfl, ?_, ?_⟩
    · simp [State.onRequestHeaders, State.new, hd, State.ret, State.emit, Ledger.emit,
        Ledger.acquireWriter, Ledger.setWriter]
    · constructor <;> simp [State.onRequestHeaders, State.new, hd, State.ret, State.emit]
  have hfirst : step (new r d shape) .arrive = some ⟨s, shape.data, []⟩ := by
    simp [step, new, RequestShape.events, deliver, hs, withholds, show (State.new r d).trace = []
      from rfl]
  have hheld : withholds s.trace = true := by
    simp [htr, withholds, withholdsAfter, HeadersStatus.stopsAll]
  refine ⟨.arrive :: List.replicate shape.data.length .arrive, ⟨s, [], shape.data⟩, ?_, ?_⟩
  · rw [run_cons_eq_some]
    exact ⟨_, hfirst, run_arrive ⟨s, shape.data, []⟩ hheld⟩
  · exact ⟨rfl, .inr hheld, hsettled⟩

end Hosted

/-! ## Filters without an observer

Nothing but the observer can start an operation before the handler has run.  Without one the filter
is dormant, and the host keeps the rest of the request back for good. -/

namespace State

/-- No user code has run and nothing is in flight. -/
structure Dormant (s : State) : Prop where
  bodyAware : s.filterDef.bodyAware = true
  responseFn : s.filterDef.responseFn = none
  settled : s.Settled
  silent : ∀ o ∈ s.trace, o.isInvoked = false ∧ o.releases = false ∧ o.endsHold = false

lemma dormant_new (r : ℕ) {d : FilterDef} (hd : d.bodyAware = true) (hfn : d.responseFn = none) :
    (State.new r d).Dormant := by
  exact ⟨hd, hfn, ⟨rfl, rfl, rfl, rfl, rfl⟩, by simp [State.new]⟩

lemma Dormant.emits {s s' : State} (hI : s.Dormant) {obs : List Obs}
    (htr : s'.trace = s.trace ++ obs)
    (hobs : ∀ o ∈ obs, o.isInvoked = false ∧ o.releases = false ∧ o.endsHold = false) :
    ∀ o ∈ s'.trace, o.isInvoked = false ∧ o.releases = false ∧ o.endsHold = false := by
  intro o ho
  rw [htr] at ho
  rcases List.mem_append.mp ho with ho | ho
  · exact hI.silent o ho
  · exact hobs o ho

lemma dormant_step {s s' : State} {l : Label} (hI : s.Dormant) (h : Moves s l s')
    (hl : l.isRequestEvent = true → s.phase = .awaitingHeaders) : s'.Dormant := by
  obtain ⟨hbody, hfn, ⟨hstack, hgo, htasks, hcallouts, hstreams⟩, -⟩ := id hI
  cases h with
  | headersHandled _ _ _ hb => simp [hbody] at hb
  | bodyHandled _ hp | bodyBuffered _ hp | bodyPassed _ _ _ hp | trailersPassed _ hp =>
      simp [hl rfl] at hp
  | responseHeadersObserved _ _ _ hobs | responseBodyObserved _ _ _ _ hobs => simp [hfn] at hobs
  | streamCompleteFlushed _ _ hobs => simp [hfn] at hobs
  | calloutDropped _ _ _ _ _ hid | calloutContinued _ _ _ _ _ _ hid => simp [hcallouts] at hid
  | streamEventDropped _ _ hid | streamEventRun _ _ _ hid | streamEndDropped _ _ hid
  | streamEndFlushed _ _ hid | streamEndRun _ _ _ _ hid => simp [hstreams] at hid
  | taskFlushed _ _ _ _ htask | taskCallout _ _ _ _ _ _ _ _ htask => simp [htasks] at htask
  | workerActs _ _ _ _ _ hs | calloutReturned _ _ _ _ _ hs | streamReturned _ _ _ _ _ hs
  | callbackFinished _ _ _ hs => simp [hstack] at hs
  | goroutineActs _ _ _ _ hs | goroutineFinished _ hs => simp [hgo] at hs
  | doAnswered => exact ⟨hbody, hfn, ⟨hstack, hgo, htasks, hcallouts, hstreams⟩, hI.silent⟩
  | _ =>
      exact ⟨hbody, hfn, ⟨hstack, hgo, htasks, hcallouts, hstreams⟩, hI.emits rfl
        (by simp [Obs.isInvoked, Obs.releases, Obs.endsHold, Obs.resumes, HeadersStatus.stops])⟩

lemma Moves.phase_eq {s s' : State} {l : Label} (h : Moves s l s')
    (hl : l.isRequestEvent = false) : s'.phase = s.phase := by
  cases h with
  | headersDeferred | headersHandled | bodyHandled | bodyBuffered | bodyPassed | trailersPassed =>
      simp [Label.isRequestEvent] at hl
  | workerActs _ _ _ _ _ _ _ _ _ hact => exact hact.sameHost.phase
  | goroutineActs _ _ _ _ _ _ hact => exact hact.sameHost.phase
  | callbackFinished c cb rest => exact (finish_sameHost { s with stack := rest } cb).phase
  | _ => rfl

/-- Before the headers have been answered the host keeps nothing back. -/
lemma Shape.withholds_eq_false {s : State} (hs : s.Shape) (hp : s.phase = .awaitingHeaders) :
    withholds s.trace = false := by
  have hprelude := (hs.fresh hp).prelude
  refine foldl_withholdsAfter false (fun st hst => ?_) fun hc => ?_
  · simpa [Obs.isPrelude] using hprelude _ hst
  · simpa [Obs.isPrelude] using hprelude _ hc

end State

namespace Hosted

/-- The filter is dormant, and every event of the request but the headers is still with the host. -/
structure Waiting (shape : RequestShape) (h : Hosted) : Prop where
  reached : h.filter.Shape
  heldBack : h.filter.HeldBack
  dormant : h.filter.Dormant
  before : h.filter.phase = .awaitingHeaders → h.withheld = [] ∧ h.remaining = shape.events
  after : h.filter.phase ≠ .awaitingHeaders → h.withheld ++ h.remaining = shape.data

lemma Waiting.withholds_iff {shape : RequestShape} {h : Hosted} (hI : h.Waiting shape) :
    withholds h.filter.trace = true ↔ h.filter.phase ≠ .awaitingHeaders := by
  constructor
  · intro hheld hp
    simp [hI.reached.withholds_eq_false hp] at hheld
  · intro hp
    rcases hI.heldBack.held hp with hheld | hcontinue
    · exact hheld
    · simpa [Obs.releases] using (hI.dormant.silent _ hcontinue).2.1

lemma waiting_step {shape : RequestShape} {h h' : Hosted} {l : Label} (hI : h.Waiting shape)
    (hstep : h.step l = some h') : h'.Waiting shape := by
  cases step_moves hstep with
  | queued e rest hrem hheld =>
      have hp : h.filter.phase ≠ .awaitingHeaders := by
        intro hp
        rcases hheld with hheld | hwith
        · exact hI.withholds_iff.mp hheld hp
        · exact hwith (hI.before hp).1
      refine ⟨hI.reached, hI.heldBack, hI.dormant, fun h' => absurd h' hp, fun _ => ?_⟩
      have := hI.after hp
      simpa [hrem] using this
  | arrived e rest s hrem hheld hwith hs =>
      have hp : h.filter.phase = .awaitingHeaders := by
        by_contra hp
        simp [hI.withholds_iff.mpr hp] at hheld
      obtain ⟨-, hrem'⟩ := hI.before hp
      obtain ⟨rfl, rfl⟩ := List.cons.inj (hrem.symm.trans hrem')
      have hm := State.step_moves hs
      refine ⟨State.shape_step hI.reached hs, State.heldBack_step hI.heldBack hs (by simp),
        State.dormant_step hI.dormant hm fun _ => hp, fun hp' => ?_, fun _ => by simp [hwith]⟩
      cases hm <;> cases shape <;> simp [RequestShape.endOfStream] at hp'
  | resumed e rest s hwith hheld hs =>
      -- what is kept back stays, for the phase has passed the headers
      have hp : h.filter.phase ≠ .awaitingHeaders := fun hp => by
        simp [(hI.before hp).1] at hwith
      simp [hI.withholds_iff.mpr hp] at hheld
  | other e s he hs =>
      have hm := State.step_moves hs
      have hp := hm.phase_eq he
      refine ⟨State.shape_step hI.reached hs, State.heldBack_step hI.heldBack hs ?_,
        State.dormant_step hI.dormant hm (by simp [he]), ?_, ?_⟩
      · rintro rfl
        simp [State.Label.isRequestEvent] at he
      · simpa [hp] using hI.before
      · simpa [hp] using hI.after

end Hosted

/-! ## Whole runs -/

/-- **A body-aware request is left paused.**  Without an observer the handler of a body-aware filter
never runs, its request is neither released nor answered, and of the request the host never
delivers more than the headers. -/
theorem request_left_paused (r : ℕ) (d : FilterDef) (hd : d.bodyAware = true)
    (hfn : d.responseFn = none) (shape : RequestShape) (ls : List Hosted.Label) (h : Hosted)
    (hrun : run Hosted.step (Hosted.new r d shape) ls = some h) :
    (∀ o ∈ h.filter.trace, o.isInvoked = false ∧ o.releases = false ∧ o.endsHold = false) ∧
      (h.remaining = [] → h.withheld = shape.data) := by
  have hnew : (Hosted.new r d shape).Waiting shape :=
    ⟨State.shape_new r d, State.heldBack_new r hd, State.dormant_new r hd hfn,
      fun _ => ⟨rfl, rfl⟩, fun h => absurd rfl h⟩
  have hI := run_invariant (I := Hosted.Waiting shape) (fun _ _ _ => Hosted.waiting_step) hnew hrun
  refine ⟨hI.dormant.silent, fun hrem => ?_⟩
  by_cases hp : h.filter.phase = .awaitingHeaders
  · simp [(hI.before hp).2, RequestShape.events] at hrem
  · simpa [hrem] using hI.after hp

/-- **No request of a body-aware filter meets the contract.**  Whatever its shape, the request can
arrive as a whole, and no run ends with a handler that has run exactly once before the release. -/
theorem not_runsOnceOn (r : ℕ) (d : FilterDef) (hd : d.bodyAware = true) (shape : RequestShape) :
    ¬ RunsOnceOn r d shape ∧
      ∀ ls h, run Hosted.step (Hosted.new r d shape) ls = some h → ¬ RunsOnce h.filter.trace := by
  have hnever : ∀ ls h, run Hosted.step (Hosted.new r d shape) ls = some h →
      ¬ RunsOnce h.filter.trace := by
    intro ls h hrun hruns
    have hpos : 0 < h.filter.trace.countP Obs.isInvoked := by
      rw [hruns.once]
      exact Nat.one_pos
    obtain ⟨o, ho, hinvoked⟩ := List.countP_pos_iff.mp hpos
    obtain ⟨pre, post, htr⟩ := List.append_of_mem ho
    have hcontinue := (Hosted.heldBack_run hd hrun).invoked pre o post htr hinvoked
    have hunreleased := hruns.beforeRelease pre o post htr hinvoked _ hcontinue
    simp [Obs.releases] at hunreleased
  obtain ⟨ls, h, hrun, hcomplete⟩ := Hosted.exists_complete r hd shape
  exact ⟨fun hall => hnever ls h hrun (hall ls h hrun hcomplete), hnever⟩

/-- A body-aware filter whose handler does nothing. -/
def passBody : FilterDef := { handler := .ret, bodyAware := true }

/-- A request without a body is all delivered with its headers, and its handler does not run. -/
theorem headersOnly_not_handled :
    ¬ ∀ (r : ℕ) (d : FilterDef) (shape : RequestShape), d.bodyAware = true →
      RunsOnceOn r d shape := by
  intro hall
  have hruns := hall 0 passBody .headersOnly rfl [.arrive] _ rfl
    ⟨rfl, .inl rfl, ⟨rfl, rfl, rfl, rfl, rfl⟩⟩
  exact absurd hruns.once (by decide)

/-- The result applied to a request whose body comes in one piece. -/
theorem not_runsOnceOn_passBody :
    ¬ RunsOnceOn 0 passBody (.body 0) ∧
      ∀ ls h, run Hosted.step (Hosted.new 0 passBody (.body 0)) ls = some h →
        ¬ RunsOnce h.filter.trace :=
  not_runsOnceOn 0 passBody rfl (.body 0)

end Luwes.Sahl
