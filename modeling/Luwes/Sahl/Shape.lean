import Luwes.Sahl.Changes

/-!
# The shape of a reachable state

Four facts hold in every state a run reaches and are used wherever a result depends on where a run
has come from:

* before `OnRequestHeaders` nothing has touched the Writer or the handle (`Untouched`);
* after it the filter has a Writer until `OnDestroy`;
* the activations above another one are those of callout and stream events, so the handler and the
  observer only ever run at the bottom of the worker's stack;
* an activation with another one above it is inside a call on the handle.
-/

namespace Luwes.Sahl

open LabelledRun

/-- The four callbacks that deliver an event of a callout or a stream. -/
def Callback.isEvent : Callback → Bool
  | .onHttpCalloutDone | .onHttpStreamEvent | .onHttpStreamComplete | .onHttpStreamReset => true
  | _ => false

/-- An event that can happen before `OnRequestHeaders`: the observer may run without a Writer, and
the response and the stream may end. -/
def Obs.isPrelude : Obs → Bool
  | .call (.removeResponseHeader _) => true
  | .user _ _ (.setContext _) => true
  | .observed _ _ _ _ | .responseBody _ _ => true
  | .returned (.responseHeaders _) | .returned (.responseBody _ _) | .returned (.localReply _)
  | .returned .streamComplete | .returned .destroy => true
  | _ => false

namespace State

/-- Nothing has touched the Writer, the handle or the scheduler. -/
structure Untouched (s : State) : Prop where
  hasWriter : s.hasWriter = false
  queues : Writer.zero.SameQueues s.writer
  observers : ∀ f ∈ s.stack, f.cb.isObserver = true ∧ f.inHostCall = false
  goroutine : s.goroutine = none
  callouts : s.callouts = []
  streams : s.streams = []
  tasks : s.tasks = []
  prelude : ∀ o ∈ s.trace, o.isPrelude = true

/-- The shape of a reachable state. -/
structure Shape (s : State) : Prop where
  fresh : s.phase = .awaitingHeaders → s.Untouched
  hasWriter : s.phase ≠ .awaitingHeaders → s.hasWriter = !s.destroyed
  events : ∀ cb ∈ s.callbacks.dropLast, cb.isEvent = true
  hostCalls : ∀ f ∈ s.stack.tail, f.inHostCall = true

/-! ## Before the request -/

lemma untouched_new (r : ℕ) (d : FilterDef) : (State.new r d).Untouched where
  hasWriter := rfl
  queues := Writer.sameQueues_refl _
  observers := by simp [State.new]
  goroutine := rfl
  callouts := rfl
  streams := rfl
  tasks := rfl
  prelude := by simp [State.new]

/-- A step that only records events of the prelude and may activate the observer. -/
lemma Untouched.mono {s s' : State} (hs : s.Untouched) (hwriter : s'.hasWriter = false)
    (hqueues : s.writer.SameQueues s'.writer)
    (hobs : ∀ f ∈ s'.stack, f ∈ s.stack ∨ (f.cb.isObserver = true ∧ f.inHostCall = false))
    (hgo : s'.goroutine = s.goroutine) (hcallouts : s'.callouts = s.callouts)
    (hstreams : s'.streams = s.streams) (htasks : s'.tasks = s.tasks)
    (htrace : ∃ obs, s'.trace = s.trace ++ obs ∧ ∀ o ∈ obs, o.isPrelude = true) :
    s'.Untouched where
  hasWriter := hwriter
  queues := hs.queues.trans hqueues
  observers := by
    intro f hf
    rcases hobs f hf with h | h
    · exact hs.observers f h
    · exact h
  goroutine := by rw [hgo, hs.goroutine]
  callouts := by rw [hcallouts, hs.callouts]
  streams := by rw [hstreams, hs.streams]
  tasks := by rw [htasks, hs.tasks]
  prelude := by
    obtain ⟨obs, htr, hobs⟩ := htrace
    intro o ho
    rw [htr] at ho
    rcases List.mem_append.mp ho with h | h
    · exact hs.prelude o h
    · exact hobs o h

lemma untouched_step {s s' : State} {l : Label} (hs : s.Untouched) (h : Moves s l s')
    (hphase : s.phase = .awaitingHeaders) (hphase' : s'.phase = .awaitingHeaders) :
    s'.Untouched := by
  have hrefl := s.writer.sameQueues_refl
  cases h with
  | headersDeferred eos | headersHandled eos =>
      cases eos <;> simp at hphase'
  | bodyHandled _ hp | bodyBuffered _ hp | bodyPassed _ _ _ hp | trailersPassed _ hp =>
      simp [hphase] at hp
  | responseHeadersPassed | responseBodyPassed =>
      exact hs.mono hs.hasWriter hrefl (fun _ => .inl) rfl rfl rfl rfl ⟨_, rfl, by simp [Obs.isPrelude]⟩
  | responseHeadersObserved =>
      refine hs.mono hs.hasWriter hrefl ?_ rfl rfl rfl rfl ⟨_, rfl, ?_⟩
      · rintro f (_ | ⟨_, hf⟩)
        · exact .inr ⟨rfl, rfl⟩
        · exact .inl hf
      · split_ifs <;> simp [Obs.isPrelude]
  | responseBodyObserved =>
      refine hs.mono hs.hasWriter hrefl ?_ rfl rfl rfl rfl ⟨_, rfl, by simp [Obs.isPrelude]⟩
      rintro f (_ | ⟨_, hf⟩)
      · exact .inr ⟨rfl, rfl⟩
      · exact .inl hf
  | localReply =>
      refine hs.mono hs.hasWriter ?_ (fun _ => .inl) rfl rfl rfl rfl
        ⟨_, rfl, by simp [Obs.isPrelude]⟩
      constructor <;> first | rfl | exact id
  | streamCompleteFlushed _ _ _ hwriter => simp [hs.hasWriter] at hwriter
  | streamCompletePassed =>
      exact hs.mono hs.hasWriter hrefl (fun _ => .inl) rfl rfl rfl rfl ⟨_, rfl, by simp [Obs.isPrelude]⟩
  | destroyed =>
      exact hs.mono rfl hrefl (fun _ => .inl) rfl rfl rfl rfl ⟨_, rfl, by simp [Obs.isPrelude]⟩
  | calloutDropped _ _ _ _ _ hid | calloutContinued _ _ _ _ _ _ hid => simp [hs.callouts] at hid
  | doAnswered =>
      exact hs.mono hs.hasWriter hrefl (fun _ => .inl) rfl rfl rfl rfl
        ⟨[], by simp [deliverDo], by simp⟩
  | streamEventDropped => exact hs
  | streamEventRun _ _ _ hid | streamEndDropped _ _ hid | streamEndFlushed _ _ hid
  | streamEndRun _ _ _ _ hid => simp [hs.streams] at hid
  | taskFlushed _ _ _ _ htask | taskCallout _ _ _ _ _ _ _ _ htask => simp [hs.tasks] at htask
  | workerActs c f rest code s₁ hstack _ _ hnil =>
      have htop := (hs.observers f (by simp [hstack])).1
      obtain ⟨⟨k, rfl⟩, hs₁⟩ := hnil hs.hasWriter
      have hframes : ∀ f' ∈ (⟨.prog k, f.cb⟩ : Frame) :: rest,
          f' ∈ s.stack ∨ (f'.cb.isObserver = true ∧ f'.inHostCall = false) := by
        rintro f' (_ | ⟨_, hf'⟩)
        · exact .inr ⟨htop, rfl⟩
        · exact .inl (by rw [hstack]; exact List.mem_cons_of_mem _ hf')
      rcases hs₁ with rfl | ⟨v, rs, rfl⟩
      · exact hs.mono hs.hasWriter hrefl hframes rfl rfl rfl rfl ⟨[], by simp, by simp⟩
      · exact hs.mono hs.hasWriter hrefl hframes rfl rfl rfl rfl
          ⟨_, rfl, by simp [Obs.isPrelude, Writer.userCall]⟩
  | calloutReturned c cb rest init k hstack | streamReturned c cb rest init k hstack =>
      have htop := (hs.observers _ (by rw [hstack]; exact List.mem_cons_self)).2
      simp [Frame.inHostCall] at htop
  | callbackFinished c cb rest hstack =>
      have htop := (hs.observers _ (by rw [hstack]; exact List.mem_cons_self)).1
      have hframes : ∀ f ∈ rest, f ∈ s.stack ∨ (f.cb.isObserver = true ∧ f.inHostCall = false) :=
        fun f hf => .inl (by simp [hstack, hf])
      cases cb with
      | onResponseHeaders =>
          exact hs.mono hs.hasWriter hrefl hframes rfl rfl rfl rfl ⟨_, rfl, by simp [Obs.isPrelude]⟩
      | onResponseBody endStream =>
          simp only [finish, onResponseBodyTail]
          split_ifs <;>
            exact hs.mono hs.hasWriter hrefl hframes rfl rfl rfl rfl
              ⟨_, rfl, by simp [Obs.isPrelude]⟩
      | _ => simp [Callback.isObserver] at htop
  | goroutineActs _ _ _ _ hgo | goroutineFinished _ hgo => simp [hs.goroutine] at hgo

/-! ## The shape holds in every run -/

lemma shape_new (r : ℕ) (d : FilterDef) : (State.new r d).Shape where
  fresh _ := untouched_new r d
  hasWriter h := absurd rfl h
  events := by simp [callbacks, State.new]
  hostCalls := by simp [State.new]

lemma Moves.phase_awaiting {s s' : State} {l : Label} (h : Moves s l s')
    (hphase : s'.phase = .awaitingHeaders) : s.phase = .awaitingHeaders := by
  cases h with
  | headersDeferred _ _ hp | headersHandled _ _ hp => exact hp
  | bodyHandled | bodyBuffered | trailersPassed => simp at hphase
  | bodyPassed endStream => cases endStream <;> simp at hphase
  | workerActs _ _ _ _ _ _ _ _ _ hact => exact hact.sameHost.phase.symm.trans hphase
  | goroutineActs _ _ _ _ _ _ hact => exact hact.sameHost.phase.symm.trans hphase
  | callbackFinished => rwa [(finish_sameHost _ _).phase] at hphase
  | _ => exact hphase

lemma accepting_live {s : State} (h : s.accepting = true) :
    s.streamDone = false ∧ s.destroyed = false := by
  obtain ⟨⟨-, hdone⟩, hlive⟩ : (s.idle = true ∧ s.streamDone = false) ∧ s.destroyed = false := by
    simpa [accepting] using h
  exact ⟨hdone, hlive⟩

/-- The label is the last callback of the filter. -/
def Label.isDestroy : Label → Bool
  | .destroy => true
  | _ => false

lemma Moves.destroyed_eq {s s' : State} {l : Label} (h : Moves s l s') :
    s'.destroyed = (s.destroyed || l.isDestroy) := by
  cases h with
  | destroyed => exact (Bool.or_true _).symm
  | workerActs _ _ _ _ _ _ _ _ _ hact | goroutineActs _ _ _ _ _ _ hact =>
      exact hact.sameHost.destroyed.trans (Bool.or_false _).symm
  | callbackFinished =>
      rw [(finish_sameHost _ _).destroyed]
      exact (Bool.or_false _).symm
  | _ => exact (Bool.or_false _).symm

/-- From `OnRequestHeaders` on the filter has a Writer until it is destroyed. -/
lemma hasWriter_step {s s' : State} {l : Label}
    (hs : s.phase ≠ .awaitingHeaders → s.hasWriter = !s.destroyed) (h : Moves s l s')
    (hphase : s'.phase ≠ .awaitingHeaders) : s'.hasWriter = !s'.destroyed := by
  cases h with
  | headersDeferred _ hacc | headersHandled _ hacc => simp [(accepting_live hacc).2]
  | bodyHandled _ hp | bodyBuffered _ hp | bodyPassed _ _ _ hp | trailersPassed _ hp =>
      exact hs (by simp [hp])
  | destroyed => rfl
  | workerActs _ _ _ _ _ _ _ _ _ hact =>
      have hsame := hact.sameHost
      have := hs (by rwa [← hsame.phase])
      simpa [hsame.hasWriter, hsame.destroyed] using this
  | goroutineActs _ _ _ _ _ _ hact =>
      have hsame := hact.sameHost
      have := hs (by rwa [← hsame.phase])
      simpa [hsame.hasWriter, hsame.destroyed] using this
  | callbackFinished c cb rest =>
      have hsame := finish_sameHost { s with stack := rest } cb
      have := hs (by rwa [hsame.phase] at hphase)
      simpa [hsame.hasWriter, hsame.destroyed] using this
  | _ => exact hs hphase

lemma MayActivate.isEvent {s : State} {cb : Callback} (h : s.MayActivate cb)
    (hstack : s.stack ≠ []) : cb.isEvent = true := by
  cases cb <;> first | rfl | exact absurd h.1 hstack | exact absurd h hstack

lemma events_step {s s' : State} {l : Label} (hs : ∀ cb ∈ s.callbacks.dropLast, cb.isEvent = true)
    (h : Moves s l s') : ∀ cb ∈ s'.callbacks.dropLast, cb.isEvent = true := by
  rcases h.callbacks_cases with hcbs | ⟨cb, hcbs, hmay⟩ | ⟨cb, c, rest, -, hstack, hcbs⟩
  · rwa [hcbs]
  · rw [hcbs]
    cases hold : s.callbacks with
    | nil => simp
    | cons cb' cbs =>
        have hne : s.stack ≠ [] := by
          rintro hnil
          simp [callbacks, hnil] at hold
        intro x hx
        rw [List.dropLast_cons_of_ne_nil (by simp)] at hx
        rcases List.mem_cons.mp hx with rfl | hx
        · exact hmay.isEvent hne
        · exact hs x (by rwa [hold])
  · intro x hx
    apply hs x
    rw [callbacks, hcbs] at hx
    rw [callbacks, hstack, List.map_cons]
    cases hrest : rest.map (·.cb) with
    | nil => simp [hrest] at hx
    | cons y ys =>
        rw [List.dropLast_cons_of_ne_nil (by simp)]
        exact List.mem_cons_of_mem _ (by rwa [← hrest])

/-- A callout or stream event comes only between two activations or inside a call on the handle. -/
lemma delivering_top {s : State} (h : s.delivering = true) {f : Frame} {rest : List Frame}
    (hstack : s.stack = f :: rest) : f.inHostCall = true := by
  simp only [delivering, hstack, Bool.and_eq_true] at h
  exact h.2

lemma hostCalls_push {s : State} (hs : ∀ f ∈ s.stack.tail, f.inHostCall = true)
    (hdel : s.delivering = true) : ∀ f ∈ s.stack, f.inHostCall = true := by
  cases hstack : s.stack with
  | nil => simp
  | cons f rest =>
      intro x hx
      rcases List.mem_cons.mp hx with rfl | hx
      · exact delivering_top hdel hstack
      · exact hs x (by simpa [hstack] using hx)

lemma hostCalls_step {s s' : State} {l : Label} (hs : ∀ f ∈ s.stack.tail, f.inHostCall = true)
    (h : Moves s l s') : ∀ f ∈ s'.stack.tail, f.inHostCall = true := by
  cases h with
  | headersHandled _ hacc | bodyHandled hacc | responseHeadersObserved _ _ hacc
  | responseBodyObserved _ _ _ hacc => simp [accepting_stack hacc]
  | calloutContinued _ _ _ _ _ hdel | streamEventRun _ _ hdel | streamEndRun _ _ _ hdel =>
      exact hostCalls_push hs hdel
  | workerActs _ _ _ _ _ hstack | calloutReturned _ _ _ _ _ hstack
  | streamReturned _ _ _ _ _ hstack => simpa [hstack] using hs
  | callbackFinished c cb rest hstack =>
      intro f hf
      rw [(finish_sameHost _ _).stack] at hf
      exact hs f (by simpa [hstack] using List.mem_of_mem_tail hf)
  | goroutineActs _ _ _ _ _ _ hact => simpa [hact.sameHost.stack] using hs
  | _ => exact hs

lemma shape_step {s s' : State} {l : Label} (hs : s.Shape) (h : s.step l = some s') :
    s'.Shape := by
  have hm := step_moves h
  exact
    { fresh := fun hphase =>
        have hold := hm.phase_awaiting hphase
        untouched_step (hs.fresh hold) hm hold hphase
      hasWriter := hasWriter_step hs.hasWriter hm
      events := events_step hs.events hm
      hostCalls := hostCalls_step hs.hostCalls hm }

/-- When the handler has returned it is the only activation. -/
lemma Shape.finishes_stack {s : State} {l : Label} (hs : s.Shape)
    (hfin : s.Finishes l .onRequestHeaders) : s.stack = [⟨.prog .ret, .onRequestHeaders⟩] := by
  obtain ⟨c, rest, -, hstack⟩ := hfin
  cases rest with
  | nil => exact hstack
  | cons f rest =>
      have hev := hs.events .onRequestHeaders (by
        rw [callbacks, hstack, List.map_cons, List.dropLast_cons_of_ne_nil (by simp)]
        exact List.mem_cons_self)
      simp [Callback.isEvent] at hev

/-- Whoever moves on the worker thread is the running activation. -/
lemma mem_callbacks_of_mover {s : State} {l : Label} {cb : Callback}
    (h : s.mover l = some (.worker cb)) : cb ∈ s.callbacks := by
  cases l with
  | worker c =>
      cases hstack : s.stack with
      | nil => simp [mover, hstack] at h
      | cons f rest =>
          obtain rfl : f.cb = cb := by simpa [mover, hstack] using h
          simp [callbacks, hstack]
  | _ => simp [mover] at h

/-! ## Filters that are not body-aware -/

/-- Without body-awareness no activation of `OnRequestBody` ever runs user code. -/
def NoBodyFrame (s : State) : Prop :=
  s.filterDef.bodyAware = false ∧ .onRequestBody ∉ s.callbacks

lemma noBodyFrame_step {s s' : State} {l : Label} (hI : s.NoBodyFrame)
    (h : s.step l = some s') : s'.NoBodyFrame := by
  obtain ⟨hbody, hframes⟩ := hI
  have hm := step_moves h
  refine ⟨by rw [hm.filterDef_eq, hbody], fun hmem => ?_⟩
  rcases hm.mem_callbacks hmem with hold | ⟨-, -, hb⟩
  · exact hframes hold
  · simp [hbody] at hb

/-! ## Whole runs -/

theorem shape_run {r : ℕ} {d : FilterDef} {ls : List Label} {s : State}
    (hrun : run step (State.new r d) ls = some s) : s.Shape :=
  run_invariant (fun _ _ _ => shape_step) (shape_new r d) hrun

end State

end Luwes.Sahl
