import Luwes.Sahl.Metrics

/-!
# After `OnStreamComplete`

`OnStreamComplete` sets `streamDone`, "guards late-firing callout and stream callbacks".  Seven things
can still come before `OnDestroy`: the done event of a callout, five stream events, and the flush a
goroutine has scheduled.  The done event, the completion and the reset look at `streamDone`.
`OnHttpStreamHeaders`, `OnHttpStreamData` and `OnHttpStreamTrailers` do not, and neither does the
scheduled flush.

So nothing of the request runs after `OnStreamComplete` in exactly the runs in which none of these
four comes late to a filter that would act on it.
-/

namespace Luwes.Sahl

open LabelledRun

/-- A call on the handle that resumes, changes or answers the request. -/
def HandleCall.actsOnRequest : HandleCall → Bool
  | .continueRequest | .headerSet _ | .clearRouteCache | .sendLocalResponse _ _ => true
  | _ => false

namespace State

/-- A callback calls user code. -/
def Activates (s s' : State) : Prop := ∃ cb, s'.callbacks = cb :: s.callbacks

/-- The step makes a call that acts on the request. -/
def ActsOnRequest (s s' : State) : Prop :=
  ∃ obs c, s'.trace = s.trace ++ obs ∧ .call c ∈ obs ∧ c.actsOnRequest = true

/-- If the stream is done, the step calls no user code and does not act on the request. -/
def SilentWhenDone (s : State) (l : Label) : Prop :=
  s.streamDone = true → ∀ s', s.step l = some s' → ¬ s.Activates s' ∧ ¬ s.ActsOnRequest s'

/-- The step is a stream event that is not the last of its stream and finds an event function, or a
scheduled flush that finds a response to send or a request to resume. -/
def runsUnguarded (s : State) : Label → Bool
  | .streamEvent ev => !ev.isFinal && s.hasWriter && s.writer.streamEventFn.isSome
  | .task i _ => s.tasks[i]? = some .flush && (s.writer.localResp.isSome || !s.writer.responded)
  | _ => false

/-- The step is no unguarded one that comes after `OnStreamComplete`. -/
def InTime (s : State) (l : Label) : Prop := s.streamDone = true → s.runsUnguarded l = false

instance (s : State) : DecidablePred s.InTime := fun l =>
  inferInstanceAs (Decidable (s.streamDone = true → s.runsUnguarded l = false))

/-! ## The invariant -/

/-- No user code runs on the worker thread once the stream is done, and a goroutine has been started
by `Go`. -/
structure Completed (s : State) : Prop where
  shape : s.Shape
  stack : s.streamDone = true → s.stack = []
  goStarted : s.goroutine.isSome = true → s.writer.goStarted = true

lemma completed_new (r : ℕ) (d : FilterDef) : (State.new r d).Completed where
  shape := shape_new r d
  stack _ := rfl
  goStarted h := by simp [State.new] at h

lemma Moves.streamDone {s s' : State} {l : Label} (h : Moves s l s') (hdone : s.streamDone = true) :
    s'.streamDone = true := by
  by_contra hopen
  simp [(h.streamDone_false (by simpa using hopen)).1] at hdone

/-- Once the stream is done, only an unguarded step activates anything. -/
lemma stack_step {s s' : State} {l : Label} (hs : s.streamDone = true → s.stack = [])
    (hC : s.InTime l) (h : Moves s l s') (hdone' : s'.streamDone = true) : s'.stack = [] := by
  have hopen : ∀ {b : Bool}, b = false → b = true → s'.stack = [] := by
    intro b hb hb'
    simp [hb] at hb'
  cases h with
  | headersHandled _ hacc | bodyHandled hacc | responseHeadersObserved _ _ hacc
  | responseBodyObserved _ _ _ hacc => exact hopen (accepting_live hacc).1 hdone'
  | streamCompleteFlushed _ hacc | streamCompletePassed _ hacc =>
      exact accepting_stack (s := s) hacc
  | calloutContinued _ _ _ _ _ _ _ hopen' => exact hopen hopen' hdone'
  | streamEndRun _ _ _ _ _ _ _ hopen' => exact hopen hopen' hdone'
  | streamEventRun ev fn _ _ hev hwriter hfn =>
      have hlate := hC hdone'
      simp [runsUnguarded, hev, hwriter, hfn] at hlate
  | workerActs _ _ _ _ _ hstack _ _ _ hact =>
      rw [show _ = s.streamDone from hact.sameHost.streamDone] at hdone'
      simp [hs hdone'] at hstack
  | calloutReturned _ _ _ _ _ hstack | streamReturned _ _ _ _ _ hstack =>
      simp [hs hdone'] at hstack
  | callbackFinished _ _ _ hstack =>
      rw [(finish_sameHost _ _).streamDone] at hdone'
      simp [hs hdone'] at hstack
  | goroutineActs _ _ _ _ _ _ hact =>
      rw [show _ = s.stack from hact.sameHost.stack]
      exact hs (hact.sameHost.streamDone.symm.trans hdone')
  | _ => exact hs hdone'

lemma finish_goroutine (s : State) (cb : Callback) : (s.finish cb).goroutine = s.goroutine := by
  obtain ⟨fn, obs, heq, -⟩ := finish_eq s cb
  rw [heq]
  rfl

/-- A goroutine that is there after a step was there before, or `Go` has just started it. -/
lemma Moves.goroutine_cases {s s' : State} {l : Label} (h : Moves s l s')
    (hgo : s'.goroutine.isSome = true) :
    s.goroutine.isSome = true ∨ s'.writer.goStarted = true := by
  cases h with
  | workerActs c _ _ _ _ _ _ _ _ hact =>
      generalize s.nextAct (.worker c) = a at hact
      cases hact with
      | startsGo => exact .inr rfl
      | _ => exact .inl hgo
  | goroutineActs _ _ _ _ hgo' => exact .inl (by simp [hgo'])
  | goroutineFinished => simp at hgo
  | callbackFinished c cb rest =>
      rw [finish_goroutine] at hgo
      exact .inl hgo
  | _ => exact .inl hgo

lemma completed_step {s s' : State} {l : Label} (hI : s.Completed) (hC : s.InTime l)
    (h : s.step l = some s') : s'.Completed where
  shape := shape_step hI.shape h
  stack := stack_step hI.stack hC (step_moves h)
  goStarted hgo := by
    rcases (step_moves h).goroutine_cases hgo with hold | hnew
    · have hphase : s.phase ≠ .awaitingHeaders := by
        intro hphase
        simp [(hI.shape.fresh hphase).goroutine] at hold
      exact ((step_moves h).changes.flags hphase).1 (hI.goStarted hold)
    · exact hnew

/-! ## One step after `OnStreamComplete` -/

lemma quiet_actsOnRequest {obs : List Obs} (hobs : ∀ o ∈ obs, o.isQuiet = true) {c : HandleCall}
    (hc : .call c ∈ obs) : c.actsOnRequest = false := by
  have hquiet : c.isQuiet = true := hobs _ hc
  cases c <;> first | rfl | simp [HandleCall.isQuiet] at hquiet

/-- New events make a call that acts on the request exactly when they contain one. -/
lemma actsOnRequest_iff {s s' : State} {obs : List Obs} (htr : s'.trace = s.trace ++ obs) :
    s.ActsOnRequest s' ↔ ∃ c, .call c ∈ obs ∧ c.actsOnRequest = true := by
  constructor
  · rintro ⟨obs', c, htr', hc, hacts⟩
    obtain rfl : obs = obs' := List.append_cancel_left (htr.symm.trans htr')
    exact ⟨c, hc, hacts⟩
  · rintro ⟨c, hc, hacts⟩
    exact ⟨obs, c, htr, hc, hacts⟩

/-- A flush that resumes acts on the request unless the Writer has responded by itself. -/
lemma flush_acts_iff (w : Writer) :
    (∃ c ∈ w.flush true, c.actsOnRequest = true) ↔ (w.localResp.isSome || !w.responded) = true := by
  unfold Writer.flush
  cases hresp : w.localResp with
  | some r => simp [HandleCall.actsOnRequest]
  | none =>
      cases hdone : w.responded with
      | true => simp
      | false =>
          simp only [Bool.false_eq_true, if_false, if_true, Option.isSome_none, Bool.not_false,
            Bool.or_true, iff_true]
          exact ⟨.continueRequest, by simp, rfl⟩

lemma goroutine_call_silent {w : Writer} (hgo : w.goStarted = true) (id : CallId) (c : UserCall) :
    ∀ call ∈ (w.userCall id c).2, call.actsOnRequest = false := by
  have h := w.userCall_called id c
  generalize w.userCall id c = r at h ⊢
  intro call hcall
  cases h with
  | sends _ _ _ hgo' => simp [hgo] at hgo'
  | replaces | appends => simp_all [HandleCall.actsOnRequest]
  | _ => simp at hcall

lemma flush_responded {w : Writer} (hresp : (w.localResp.isSome || !w.responded) = false) (b : Bool) :
    w.flush b = [] := by
  obtain ⟨hlocal, hdone⟩ : w.localResp = none ∧ w.responded = true := by simpa using hresp
  simp [Writer.flush, hlocal, hdone]

lemma not_actsOnRequest {s s' : State} {l : Label} (hI : s.Completed) (hdone : s.streamDone = true)
    (hlate : s.runsUnguarded l = false) (h : s.step l = some s') : ¬ s.ActsOnRequest s' := by
  have hm := step_moves h
  have hsilent : ∀ obs, s'.trace = s.trace ++ obs →
      (∀ c, .call c ∈ obs → c.actsOnRequest = false) → ¬ s.ActsOnRequest s' := by
    intro obs htr hobs
    rw [actsOnRequest_iff htr]
    rintro ⟨c, hc, hacts⟩
    simp [hobs c hc] at hacts
  have hchanges := hm.changes
  generalize hg : s'.toLedger = g at hchanges
  have htrace : s'.trace = g.trace := by rw [hg]
  cases hchanges with
  | quiet _ hq | acquired _ _ hq =>
      obtain ⟨obs, htr, hobs⟩ := hq.trace
      exact hsilent obs (htrace.trans htr) fun c => quiet_actsOnRequest hobs
  | called who c _ hwho =>
      cases l with
      | worker => simp [mover, hI.stack hdone] at hwho
      | goroutine ch =>
          have hgo : s.goroutine.isSome = true := by
            cases hgo : s.goroutine with
            | none => simp [step, hgo] at h
            | some code => rfl
          refine hsilent _ htrace fun call hcall => ?_
          apply goroutine_call_silent (hI.goStarted hgo) ⟨s.request, s.seq⟩ c
          simpa using hcall
      | _ => simp [mover] at hwho
  | flushed b hflush h₁ h₂ =>
      obtain ⟨obs₁, htr₁, hobs₁⟩ := h₁.trace
      obtain ⟨obs₂, htr₂, hobs₂⟩ := h₂.trace
      have hresp : (s.writer.localResp.isSome || !s.writer.responded) = false := by
        cases l with
        | task i ch =>
            have htask : s.tasks[i]? = some .flush := by simpa [runsFlush] using hflush
            simpa [runsUnguarded, htask] using hlate
        | worker => simp [runsFlush, hI.stack hdone] at hflush
        | streamEvent ev => cases ev <;> simp [runsFlush, hdone] at hflush
        | _ => simp [runsFlush] at hflush
      rw [← h₁.queues.localResp, ← h₁.queues.responded] at hresp
      refine hsilent (obs₁ ++ .flushed b :: obs₂) ?_ fun c hc => ?_
      · simp [htrace, htr₂, Ledger.flush, Ledger.emit, htr₁, flush_responded hresp]
      · rcases List.mem_append.mp hc with hc | hc
        · exact quiet_actsOnRequest hobs₁ hc
        · exact quiet_actsOnRequest hobs₂ (by simpa using hc)
  | responseFlushed hl =>
      subst hl
      obtain ⟨hacc, -⟩ := by simpa [step] using h
      simp [(accepting_live hacc).1] at hdone

lemma not_activates {s s' : State} {l : Label} (hI : s.Completed) (hdone : s.streamDone = true)
    (hlate : s.runsUnguarded l = false) (h : s.step l = some s') : ¬ s.Activates s' := by
  rintro ⟨cb, hcb⟩
  have hm := step_moves h
  have hstack := stack_step hI.stack (fun _ => hlate) hm (hm.streamDone hdone)
  simp [callbacks, hstack] at hcb

/-- An unguarded step that comes late does what it would have done in time. -/
lemma unguarded_acts {s s' : State} {l : Label} (hlate : s.runsUnguarded l = true)
    (h : s.step l = some s') : s.Activates s' ∨ s.ActsOnRequest s' := by
  cases l with
  | streamEvent ev =>
      obtain ⟨⟨hev, hwriter⟩, hfn⟩ : (ev.isFinal = false ∧ s.hasWriter = true) ∧
          s.writer.streamEventFn.isSome = true := by simpa [runsUnguarded] using hlate
      obtain ⟨fn, hfn⟩ := Option.isSome_iff_exists.mp hfn
      obtain ⟨-, h⟩ := by simpa [step] using h
      have hs' : s' = s.push .onHttpStreamEvent (fn ev) := by
        cases ev <;> simp_all [streamEvent, HTTPStreamEvent.isFinal, onHttpStream, onHttpStreamEvent]
      exact .inl ⟨.onHttpStreamEvent, by simp [hs', callbacks, push]⟩
  | task i c =>
      obtain ⟨htask, hresp⟩ : s.tasks[i]? = some .flush ∧
          (s.writer.localResp.isSome || !s.writer.responded) = true := by
        simpa [runsUnguarded] using hlate
      obtain ⟨-, h⟩ := by simpa [step] using h
      obtain rfl : _ = s' := by simpa [runTask, htask] using h
      obtain ⟨call, hcall, hacts⟩ := (flush_acts_iff s.writer).mpr hresp
      exact .inr ⟨_, call, rfl, by simp [hcall], hacts⟩
  | _ => simp [runsUnguarded] at hlate

/-- A step is silent after `OnStreamComplete` exactly when it is no unguarded one. -/
lemma silent_iff {s s' : State} {l : Label} (hI : s.Completed) (h : s.step l = some s') :
    s.SilentWhenDone l ↔ s.InTime l := by
  constructor
  · intro hsilent hdone
    by_contra hlate
    obtain ⟨hact, hcalls⟩ := hsilent hdone s' h
    rcases unguarded_acts (by simpa using hlate) h with hact' | hcalls'
    · exact hact hact'
    · exact hcalls hcalls'
  · intro hC hdone s'' h'
    exact ⟨not_activates hI hdone (hC hdone) h', not_actsOnRequest hI hdone (hC hdone) h'⟩

end State

/-! ## Whole runs -/

/-- **The exact condition.**  After `OnStreamComplete` no user code is called and nothing acts on the
request, in exactly the runs in which no unguarded step comes after it. -/
theorem silentWhenDone_iff (r : ℕ) (d : FilterDef) (ls : List State.Label) (s : State)
    (hrun : run State.step (State.new r d) ls = some s) :
    Along State.step State.SilentWhenDone (State.new r d) ls ↔
      Along State.step State.InTime (State.new r d) ls :=
  along_iff (fun _ _ _ => State.completed_step) (fun _ _ _ => State.silent_iff)
    (State.completed_new r d) hrun

/-- The stream of a handler that looks at each of its events. -/
def auditStream : HTTPStreamRequest :=
  { cluster := ascii "audit", headers := [], body := [], endOfStream := true, timeoutMs := 250 }

/-- The filter of that handler. -/
def watchStream : FilterDef where
  handler := .httpStream auditStream (fun _ => .ret) fun _ => .ret

/-- The downstream disconnects while the stream is open, and then its headers arrive. -/
def lateStreamHeaders : List State.Label :=
  [.requestHeaders true, .worker { id := 7 }, .worker {}, .worker {}, .streamComplete,
    .streamEvent (.headers 7 [] false)]

/-- The event function runs on a request that is over. -/
theorem lateStreamHeaders_run :
    ¬ ∀ (r : ℕ) (d : FilterDef) (ls : List State.Label) (s : State),
      run State.step (State.new r d) ls = some s →
        Along State.step State.SilentWhenDone (State.new r d) ls := by
  intro h
  obtain ⟨-, h⟩ := h 0 watchStream lateStreamHeaders _ rfl
  have hlast := ((((h _ rfl).2 _ rfl).2 _ rfl).2 _ rfl).2 _ rfl
  exact (hlast.1 rfl _ rfl).1 ⟨.onHttpStreamEvent, rfl⟩

/-- A stream whose headers come in time, and that is reset when the request is over. -/
def streamResetLate : List State.Label :=
  [.requestHeaders true, .worker { id := 7 }, .worker {}, .worker {}, .streamEvent (.headers 7 [] false),
    .worker {}, .streamComplete, .streamEvent (.reset 7 .localReset)]

/-- The condition evaluated on such a stream: the reset finds `streamDone`. -/
theorem silentWhenDone_iff_reset :
    ∃ s, run State.step (State.new 0 watchStream) streamResetLate = some s ∧
      Along State.step State.SilentWhenDone (State.new 0 watchStream) streamResetLate := by
  obtain ⟨s, hrun⟩ : ∃ s, run State.step (State.new 0 watchStream) streamResetLate = some s := ⟨_, rfl⟩
  exact ⟨s, hrun, (silentWhenDone_iff 0 watchStream _ s hrun).mpr (by decide)⟩

end Luwes.Sahl
