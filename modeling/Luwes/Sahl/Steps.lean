import Luwes.Sahl.Filter
import Luwes.Lib.LabelledRun

/-!
# What a step can do

`State.step` dispatches to the callbacks, and the callbacks branch.  This module turns a step inside
out once: `Moves` lists its branches, each with the condition under which it is taken and the state
it leads to, written as a record of the fields that change.  Every invariant of the development is
a case analysis of `Moves` (`step_moves`) and never unfolds a callback.

The calls of user code are kept apart (`Acts`), because the worker thread and the goroutine make the
same ones.
-/

namespace Luwes.Sahl

namespace State

/-! ## One call of user code -/

/-- What a step of user code amounts to: a call of a method that returns at once, a call by which an
operation is accepted, or neither. -/
inductive Act
  | silent
  | calls (c : UserCall)
  | accepts (op : AsyncOp)

/-- An operation is accepted. -/
def Act.isAccept : Act → Bool
  | .accepts _ => true
  | _ => false

/-- What the next step of a program amounts to.  An operation is accepted if the call passes the
checks of its method and the host grants it. -/
def act (s : State) (c : Choice) : Prog → Act
  | .call u _ => .calls u
  | .go _ _ => if s.writer.goPanics then .silent else .accepts .go
  | .httpCallout _ _ _ =>
    if s.writer.calloutPanics then .silent
    else if c.init = .success then .accepts .callout else .silent
  | .httpStream _ _ _ =>
    if s.writer.streamPanics then .silent
    else if c.init = .success then .accepts .stream else .silent
  | _ => .silent

/-- What the step amounts to. -/
def nextAct (s : State) : Label → Act
  | .worker c =>
    match s.stack with
    | ⟨.prog p, _⟩ :: _ => s.act c p
    | _ => .silent
  | .goroutine c =>
    match s.goroutine with
    | some (.prog p) => s.act c p
    | _ => .silent
  | _ => .silent

/-- Whose user code takes the step. -/
def mover (s : State) : Label → Option Actor
  | .worker _ => s.stack.head?.map fun f => .worker f.cb
  | .goroutine _ => some .goroutine
  | _ => none

/-- The step accepts an operation. -/
def acceptsOp (s : State) (l : Label) : Bool := (s.nextAct l).isAccept

/-- What one step of the user code of `who` does to the request.  The code it goes on with is left to
whoever runs it. -/
inductive Acts (s : State) (who : Actor) : Act → Code → State → Prop
  /-- A read, a call that panics, or a `Do` that wakes up. -/
  | reads (p : Prog) : Acts s who .silent (.prog p) s
  | calls (c : UserCall) (k : Prog) (rs : ResponseState) :
      Acts s who (.calls c) (.prog k) { s with toLedger := s.toLedger.userCall who c, respState := rs }
  | startsGo (fn k : Prog) (hgo : s.writer.goStarted = false) :
      Acts s who (.accepts .go) (.prog k)
        { s with
          toLedger := (s.toLedger.setWriter (s.writer.startGo s.request)).emit [.started who .go]
          goroutine := some (.prog fn) }
  | failsCallout (req : HTTPCalloutRequest) (fn : HTTPCalloutFunc) (init : HttpCalloutInitResult)
      (k : Outcome HttpCalloutInitResult → Prog) (hfree : s.writer.calloutPanics = false)
      (hinit : init ≠ .success) :
      Acts s who .silent (.inHttpCallout init k)
        { s with
          toLedger := (s.toLedger.setWriter (s.writer.storeCalloutFn fn)).emit
            [.call (.httpCallout req)] }
  | startsCallout (req : HTTPCalloutRequest) (fn : HTTPCalloutFunc) (id : ℕ)
      (k : Outcome HttpCalloutInitResult → Prog) (hfree : s.writer.calloutPanics = false)
      (hid : id ∉ s.calloutIds) :
      Acts s who (.accepts .callout) (.inHttpCallout .success k)
        { s with
          toLedger := ((s.toLedger.setWriter (s.writer.storeCalloutFn fn)).emit
            [.call (.httpCallout req)]).emit [.started who .callout]
          callouts := id :: s.callouts }
  | failsStream (req : HTTPStreamRequest) (fn : HTTPStreamEventFunc) (init : HttpCalloutInitResult)
      (k : Outcome HttpCalloutInitResult → Prog) (hfree : s.writer.streamPanics = false)
      (hinit : init ≠ .success) :
      Acts s who .silent (.inStartHttpStream init k)
        { s with
          toLedger := (s.toLedger.setWriter (s.writer.storeStreamEventFn fn)).emit
            [.call (.startHttpStream req)] }
  | startsStream (req : HTTPStreamRequest) (fn : HTTPStreamEventFunc) (id : ℕ)
      (k : Outcome HttpCalloutInitResult → Prog) (hfree : s.writer.streamPanics = false)
      (hid : id ∉ s.streams) :
      Acts s who (.accepts .stream) (.inStartHttpStream .success k)
        { s with
          toLedger := ((s.toLedger.setWriter (s.writer.storeStreamEventFn fn)).emit
            [.call (.startHttpStream req)]).emit [.started who .stream]
          streams := id :: s.streams }
  | schedulesDo (req : HTTPCalloutRequest) (k : Outcome DoResult → Prog)
      (hgo : s.writer.goStarted = true) :
      Acts s who .silent (.inDo s.chans.length k)
        { s with chans := s.chans ++ [none], tasks := s.tasks ++ [.doCallout s.chans.length req] }

lemma userCall_eq (s : State) (who : Actor) (c : UserCall) :
    ∃ rs, s.userCall who c =
      { s with toLedger := s.toLedger.userCall who c, respState := rs } := by
  cases c <;> exact ⟨_, rfl⟩

lemma op_acts {s s' : State} {who : Actor} {c : Choice} {p : Prog} {code : Code}
    (h : s.op who c p = some (code, s')) : Acts s who (s.act c p) code s' := by
  cases p with
  | ret => simp [op] at h
  | panic => simp [op] at h
  | observe k =>
      obtain ⟨rfl, rfl⟩ : Code.prog (k c.answer) = code ∧ s = s' := by simpa [op] using h
      exact .reads _
  | call u k =>
      obtain ⟨rfl, rfl⟩ : Code.prog k = code ∧ s.userCall who u = s' := by simpa [op] using h
      obtain ⟨rs, hrs⟩ := userCall_eq s who u
      rw [hrs]
      exact .calls u k rs
  | go fn k =>
      by_cases hgo : s.writer.goStarted
      · obtain ⟨rfl, rfl⟩ : Code.prog (k .panicked) = code ∧ s = s' := by
          simpa [op, Writer.goPanics, hgo] using h
        simpa [act, Writer.goPanics, hgo] using Acts.reads _
      · obtain ⟨rfl, rfl⟩ : Code.prog (k (.ok ())) = code ∧ s.startGo who fn = s' := by
          simpa [op, Writer.goPanics, hgo] using h
        have hact : s.act c (.go fn k) = .accepts .go := by simp [act, Writer.goPanics, hgo]
        rw [hact]
        exact .startsGo fn _ (by simpa using hgo)
  | httpCallout req fn k =>
      by_cases hp : s.writer.calloutPanics
      · obtain ⟨rfl, rfl⟩ : Code.prog (k .panicked) = code ∧ s = s' := by simpa [op, hp] using h
        simpa [act, hp] using Acts.reads _
      · by_cases hid : c.id ∈ s.calloutIds
        · simp [op, hp, hid] at h
        · obtain ⟨rfl, rfl⟩ : Code.inHttpCallout c.init k = code ∧
              s.beginCallout who req fn c.init c.id = s' := by simpa [op, hp, hid] using h
          by_cases hinit : c.init = .success
          · have hact : s.act c (.httpCallout req fn k) = .accepts .callout := by
              simp [act, hp, hinit]
            rw [beginCallout, if_pos hinit, hinit, hact]
            exact .startsCallout req fn c.id k (by simpa using hp) hid
          · have hact : s.act c (.httpCallout req fn k) = .silent := by simp [act, hinit]
            rw [beginCallout, if_neg hinit, hact]
            exact .failsCallout req fn c.init k (by simpa using hp) hinit
  | httpStream req fn k =>
      by_cases hp : s.writer.streamPanics
      · obtain ⟨rfl, rfl⟩ : Code.prog (k .panicked) = code ∧ s = s' := by simpa [op, hp] using h
        simpa [act, hp] using Acts.reads _
      · by_cases hid : c.id ∈ s.streams
        · simp [op, hp, hid] at h
        · obtain ⟨rfl, rfl⟩ : Code.inStartHttpStream c.init k = code ∧
              s.beginStream who req fn c.init c.id = s' := by simpa [op, hp, hid] using h
          by_cases hinit : c.init = .success
          · have hact : s.act c (.httpStream req fn k) = .accepts .stream := by
              simp [act, hp, hinit]
            rw [beginStream, if_pos hinit, hinit, hact]
            exact .startsStream req fn c.id k (by simpa using hp) hid
          · have hact : s.act c (.httpStream req fn k) = .silent := by simp [act, hinit]
            rw [beginStream, if_neg hinit, hact]
            exact .failsStream req fn c.init k (by simpa using hp) hinit
  | doCallout req k =>
      by_cases hgo : s.writer.goStarted
      · obtain ⟨rfl, rfl⟩ : Code.inDo s.chans.length k = code ∧ s.beginDo req = s' := by
          simpa [op, hgo] using h
        exact .schedulesDo req k hgo
      · obtain ⟨rfl, rfl⟩ : Code.prog (k .panicked) = code ∧ s = s' := by
          simpa [op, hgo] using h
        exact .reads _

/-- Code that goes on although the Writer is nil has not touched it. -/
lemma op_nilWriter {s s' : State} {who : Actor} {c : Choice} {p : Prog} {code : Code}
    (h : s.op who c p = some (code, s')) (hnil : s.nilWriter p = false)
    (hwriter : s.hasWriter = false) :
    (∃ k, code = .prog k) ∧ (s' = s ∨ ∃ v rs, s' =
      { s with toLedger := s.toLedger.userCall who (.setContext v), respState := rs }) := by
  cases p with
  | ret | panic => simp [op] at h
  | observe k =>
      obtain ⟨rfl, rfl⟩ : Code.prog (k c.answer) = code ∧ s = s' := by simpa [op] using h
      exact ⟨⟨_, rfl⟩, .inl rfl⟩
  | call u k =>
      obtain ⟨rfl, rfl⟩ : Code.prog k = code ∧ s.userCall who u = s' := by simpa [op] using h
      cases u with
      | setContext v => exact ⟨⟨_, rfl⟩, .inr ⟨v, _, rfl⟩⟩
      | _ => simp [nilWriter, hwriter] at hnil
  | go | httpCallout | httpStream | doCallout => simp [nilWriter, hwriter] at hnil

/-! ## The branches of a step -/

/-- What one step does, branch by branch. -/
inductive Moves (s : State) : Label → State → Prop
  -- `OnRequestHeaders`
  | headersDeferred (eos : Bool) (hacc : s.accepting = true) (hphase : s.phase = .awaitingHeaders)
      (hbody : s.filterDef.bodyAware = true) :
      Moves s (.requestHeaders eos)
        { s with
          phase := if eos then .ended else .receiving
          hasReq := true
          hasWriter := true
          toLedger := s.toLedger.acquireWriter.emit
            [.returned (.requestHeaders .statusStopAllAndBuffer)] }
  | headersHandled (eos : Bool) (hacc : s.accepting = true) (hphase : s.phase = .awaitingHeaders)
      (hbody : s.filterDef.bodyAware = false) :
      Moves s (.requestHeaders eos)
        { s with
          phase := if eos then .ended else .receiving
          hasReq := true
          hasWriter := true
          toLedger := s.toLedger.acquireWriter.emit [.invoked .onRequestHeaders]
          stack := ⟨.prog s.filterDef.handler, .onRequestHeaders⟩ :: s.stack }
  -- `OnRequestBody` and `OnRequestTrailers`
  | bodyHandled (hacc : s.accepting = true) (hphase : s.phase = .receiving)
      (hbody : s.filterDef.bodyAware = true) :
      Moves s (.requestBody true)
        { s with
          phase := .ended
          bodyDone := true
          toLedger := s.toLedger.emit [.invoked .onRequestBody]
          stack := ⟨.prog s.filterDef.handler, .onRequestBody⟩ :: s.stack }
  | bodyBuffered (hacc : s.accepting = true) (hphase : s.phase = .receiving)
      (hbody : s.filterDef.bodyAware = true) :
      Moves s (.requestBody false)
        { s with
          phase := .receiving
          toLedger := s.toLedger.emit [.returned (.requestBody false .statusStopAndBuffer)] }
  | bodyPassed (endStream bodyDone : Bool) (hacc : s.accepting = true)
      (hphase : s.phase = .receiving) (hbody : s.filterDef.bodyAware = false) :
      Moves s (.requestBody endStream)
        { s with
          phase := if endStream then .ended else .receiving
          bodyDone := bodyDone
          toLedger := s.toLedger.emit [.returned (.requestBody endStream .statusContinue)] }
  | trailersPassed (hacc : s.accepting = true) (hphase : s.phase = .receiving) :
      Moves s .requestTrailers
        { s with
          phase := .ended
          toLedger := s.toLedger.emit [.returned (.requestTrailers .statusContinue)] }
  -- The response callbacks
  | responseHeadersPassed (headers : HeaderMap) (hacc : s.accepting = true) :
      Moves s (.responseHeaders headers)
        { s with toLedger := s.toLedger.emit [.returned (.responseHeaders .statusContinue)] }
  | responseHeadersObserved (headers : HeaderMap) (fn : ResponseHandlerFunc)
      (hacc : s.accepting = true) (hfn : s.filterDef.responseFn = some fn) :
      Moves s (.responseHeaders headers)
        { s with
          respState := s.respState.onResponseHeaders headers
          toLedger := s.toLedger.emit
            ((if s.filterDef.mutableResponse then
                [.call (.removeResponseHeader (ascii "content-length"))] else []) ++
              [.observed .onResponseHeaders (s.respState.onResponseHeaders headers).chunk
                (s.respState.onResponseHeaders headers).ctx s.hasWriter])
          stack := ⟨.prog (fn (s.respState.onResponseHeaders headers).chunk), .onResponseHeaders⟩ ::
            s.stack }
  | responseBodyPassed (body : List UnsafeEnvoyBuffer) (endStream : Bool) (st : BodyStatus)
      (hacc : s.accepting = true) (hfn : s.filterDef.responseFn = none) :
      Moves s (.responseBody body endStream)
        { s with
          toLedger := s.toLedger.emit
            [.responseBody body endStream, .returned (.responseBody endStream st)] }
  | responseBodyObserved (body : List UnsafeEnvoyBuffer) (endStream : Bool)
      (fn : ResponseHandlerFunc) (hacc : s.accepting = true)
      (hfn : s.filterDef.responseFn = some fn) :
      Moves s (.responseBody body endStream)
        { s with
          respState := s.respState.onResponseBody body endStream
          toLedger := s.toLedger.emit
            [.responseBody body endStream,
              .observed (.onResponseBody endStream) (s.respState.onResponseBody body endStream).chunk
                (s.respState.onResponseBody body endStream).ctx s.hasWriter]
          stack := ⟨.prog (fn (s.respState.onResponseBody body endStream).chunk),
            .onResponseBody endStream⟩ :: s.stack }
  -- The end of the request
  | localReply (details : UnsafeEnvoyBuffer) (text : GoString) :
      Moves s (.localReply details)
        { s with
          toLedger := (s.toLedger.setWriter { s.writer with localReplyDetails := text }).emit
            [.returned (.localReply .statusContinue)] }
  | streamCompleteFlushed (cancelled : Bool) (hacc : s.accepting = true)
      (hfn : s.filterDef.responseFn.isSome = true) (hwriter : s.hasWriter = true) :
      Moves s .streamComplete
        { s with
          streamDone := true
          ctxDone := cancelled
          toLedger := s.toLedger.flushResponseMutations.emit [.returned .streamComplete] }
  | streamCompletePassed (cancelled : Bool) (hacc : s.accepting = true)
      (hskip : s.filterDef.responseFn.isSome = false ∨ s.hasWriter = false) :
      Moves s .streamComplete
        { s with
          streamDone := true
          ctxDone := cancelled
          toLedger := s.toLedger.emit [.returned .streamComplete] }
  | destroyed (hidle : s.idle = true) (hlive : s.destroyed = false) :
      Moves s .destroy
        { s with
          hasReq := false
          hasWriter := false
          respState := s.respState.reset
          destroyed := true
          toLedger := s.toLedger.emit [.returned .destroy] }
  -- Callout and stream events
  | calloutDropped (id : ℕ) (result : HttpCalloutResult) (headers : HeaderSlice)
      (body : List UnsafeEnvoyBuffer) (hdel : s.delivering = true) (hid : id ∈ s.callouts) :
      Moves s (.calloutDone id result headers body)
        { s with
          callouts := s.callouts.erase id
          toLedger := s.toLedger.emit [.completed .callout] }
  | calloutContinued (id : ℕ) (result : HttpCalloutResult) (headers : HeaderSlice)
      (body : List UnsafeEnvoyBuffer) (fn : HTTPCalloutFunc) (hdel : s.delivering = true)
      (hid : id ∈ s.callouts) (hdone : s.streamDone = false) (hwriter : s.hasWriter = true)
      (hfn : s.writer.calloutFn = some fn) :
      Moves s (.calloutDone id result headers body)
        { s with
          callouts := s.callouts.erase id
          toLedger := (s.toLedger.emit [.completed .callout]).setWriter
            { s.writer with calloutFn := none }
          stack := ⟨.prog (fn result headers body), .onHttpCalloutDone⟩ :: s.stack }
  | doAnswered (id ch : ℕ) (result : HttpCalloutResult) (headers : HeaderSlice)
      (body : List UnsafeEnvoyBuffer) (id' : ℕ) (hdel : s.delivering = true) :
      Moves s (.calloutDone id' result headers body)
        (s.deliverDo id ch ⟨result, headers, body⟩)
  | streamEventDropped (ev : HTTPStreamEvent) (hdel : s.delivering = true)
      (hid : ev.streamID ∈ s.streams) (hev : ev.isFinal = false) :
      Moves s (.streamEvent ev) s
  | streamEventRun (ev : HTTPStreamEvent) (fn : HTTPStreamEventFunc) (hdel : s.delivering = true)
      (hid : ev.streamID ∈ s.streams) (hev : ev.isFinal = false) (hwriter : s.hasWriter = true)
      (hfn : s.writer.streamEventFn = some fn) :
      Moves s (.streamEvent ev)
        { s with stack := ⟨.prog (fn ev), .onHttpStreamEvent⟩ :: s.stack }
  | streamEndDropped (ev : HTTPStreamEvent) (hdel : s.delivering = true)
      (hid : ev.streamID ∈ s.streams) (hev : ev.isFinal = true)
      (hskip : s.streamDone = false → s.hasWriter = true → ∃ id reason, ev = .reset id reason) :
      Moves s (.streamEvent ev)
        { s with
          streams := s.streams.erase ev.streamID
          toLedger := s.toLedger.emit [.completed .stream] }
  | streamEndFlushed (id : ℕ) (hdel : s.delivering = true) (hid : id ∈ s.streams)
      (hdone : s.streamDone = false) (hwriter : s.hasWriter = true)
      (hfn : s.writer.streamEventFn = none) :
      Moves s (.streamEvent (.complete id))
        { s with
          streams := s.streams.erase id
          toLedger := (s.toLedger.emit [.completed .stream]).flush true }
  | streamEndRun (ev : HTTPStreamEvent) (cb : Callback) (fn : HTTPStreamEventFunc)
      (hdel : s.delivering = true) (hid : ev.streamID ∈ s.streams) (hev : ev.isFinal = true)
      (hcb : cb = .onHttpStreamComplete ∨ cb = .onHttpStreamReset)
      (hdone : s.streamDone = false) (hwriter : s.hasWriter = true)
      (hfn : s.writer.streamEventFn = some fn) :
      Moves s (.streamEvent ev)
        { s with
          streams := s.streams.erase ev.streamID
          toLedger := s.toLedger.emit [.completed .stream]
          stack := ⟨.prog (fn ev), cb⟩ :: s.stack }
  -- The scheduler
  | taskFlushed (i : ℕ) (c : Choice) (hidle : s.idle = true) (hlive : s.destroyed = false)
      (htask : s.tasks[i]? = some .flush) :
      Moves s (.task i c)
        { s with tasks := s.tasks.eraseIdx i, toLedger := s.toLedger.flush true }
  | taskCallout (i : ℕ) (c : Choice) (ch : ℕ) (req : HTTPCalloutRequest)
      (chans : List (Option DoResult)) (doCallouts : List (ℕ × ℕ)) (hidle : s.idle = true)
      (hlive : s.destroyed = false) (htask : s.tasks[i]? = some (.doCallout ch req)) :
      Moves s (.task i c)
        { s with
          tasks := s.tasks.eraseIdx i
          chans := chans
          doCallouts := doCallouts
          toLedger := s.toLedger.emit [.call (.httpCallout req)] }
  -- The worker thread
  | workerActs (c : Choice) (f : Frame) (rest : List Frame) (code : Code) (s₁ : State)
      (hstack : s.stack = f :: rest) (hcode : f.code ≠ .prog .ret)
      (hhost : f.inHostCall = false)
      (hnil : s.hasWriter = false → (∃ k, code = .prog k) ∧ (s₁ = s ∨ ∃ v rs, s₁ =
        { s with toLedger := s.toLedger.userCall (.worker f.cb) (.setContext v), respState := rs }))
      (hact : Acts s (.worker f.cb) (s.nextAct (.worker c)) code s₁) :
      Moves s (.worker c) { s₁ with stack := ⟨code, f.cb⟩ :: rest }
  | calloutReturned (c : Choice) (cb : Callback) (rest : List Frame) (init : HttpCalloutInitResult)
      (k : Outcome HttpCalloutInitResult → Prog)
      (hstack : s.stack = ⟨.inHttpCallout init k, cb⟩ :: rest) :
      Moves s (.worker c)
        { s with
          toLedger := s.toLedger.setWriter (s.writer.calloutInit init)
          stack := ⟨.prog (k (.ok init)), cb⟩ :: rest }
  | streamReturned (c : Choice) (cb : Callback) (rest : List Frame) (init : HttpCalloutInitResult)
      (k : Outcome HttpCalloutInitResult → Prog)
      (hstack : s.stack = ⟨.inStartHttpStream init k, cb⟩ :: rest) :
      Moves s (.worker c)
        { s with
          toLedger := s.toLedger.setWriter (s.writer.streamInit init)
          stack := ⟨.prog (k (.ok init)), cb⟩ :: rest }
  | callbackFinished (c : Choice) (cb : Callback) (rest : List Frame)
      (hstack : s.stack = ⟨.prog .ret, cb⟩ :: rest) :
      Moves s (.worker c) ({ s with stack := rest }.finish cb)
  -- The goroutine
  | goroutineActs (c : Choice) (code₀ code : Code) (s₁ : State)
      (hgo : s.goroutine = some code₀) (hcode : code₀ ≠ .prog .ret)
      (hact : Acts s .goroutine (s.nextAct (.goroutine c)) code s₁) :
      Moves s (.goroutine c) { s₁ with goroutine := some code }
  | goroutineFinished (c : Choice) (hgo : s.goroutine = some (.prog .ret)) :
      Moves s (.goroutine c)
        { s with
          goroutine := none
          ctxDone := true
          tasks := s.tasks ++ [.flush]
          toLedger := s.toLedger.emit [.completed .go] }

/-! ## Every step is one of them -/

lemma localReply_moves (s : State) (details : UnsafeEnvoyBuffer) :
    Moves s (.localReply details) (s.onLocalReply details) := by
  by_cases h : s.hasWriter && details.len > 0
  · rw [onLocalReply, if_pos h]
    exact .localReply details details.toString
  · rw [onLocalReply, if_neg h]
    exact .localReply details s.writer.localReplyDetails

lemma cancelGo_eq (s : State) : ∃ cancelled, s.cancelGo = { s with ctxDone := cancelled } := by
  unfold cancelGo
  split
  · exact ⟨true, rfl⟩
  · exact ⟨s.ctxDone, rfl⟩

lemma streamComplete_moves {s : State} (hacc : s.accepting = true) :
    Moves s .streamComplete s.onStreamComplete := by
  by_cases h : s.filterDef.responseFn.isSome && s.hasWriter
  · obtain ⟨hfn, hwriter⟩ : s.filterDef.responseFn.isSome = true ∧ s.hasWriter = true := by
      simpa using h
    obtain ⟨cancelled, hcancel⟩ := cancelGo_eq { s with streamDone := true }.flushResponseMutations
    rw [onStreamComplete, if_pos h, hcancel]
    exact .streamCompleteFlushed cancelled hacc hfn hwriter
  · have hskip : s.filterDef.responseFn.isSome = false ∨ s.hasWriter = false := by
      by_contra hcon
      exact h (by simp_all)
    obtain ⟨cancelled, hcancel⟩ := cancelGo_eq { s with streamDone := true }
    rw [onStreamComplete, if_neg h, hcancel]
    exact .streamCompletePassed cancelled hacc hskip

lemma responseHeaders_moves {s : State} (headers : HeaderMap) (hacc : s.accepting = true) :
    Moves s (.responseHeaders headers) (s.onResponseHeaders headers) := by
  cases hfn : s.filterDef.responseFn with
  | none =>
      rw [onResponseHeaders, hfn]
      exact .responseHeadersPassed headers hacc
  | some fn =>
      have := Moves.responseHeadersObserved headers fn hacc hfn
      by_cases hmut : s.filterDef.mutableResponse <;>
        simpa [onResponseHeaders, hfn, hmut, callObserver, push, emit, Ledger.emit] using this

lemma responseBody_moves {s : State} (body : List UnsafeEnvoyBuffer) (endStream : Bool)
    (hacc : s.accepting = true) :
    Moves s (.responseBody body endStream) (s.onResponseBody body endStream) := by
  cases hfn : s.filterDef.responseFn with
  | none =>
      by_cases hmut : s.filterDef.mutableResponse && !endStream
      · have := Moves.responseBodyPassed body endStream .statusStopAndBuffer hacc hfn
        simpa [onResponseBody, onResponseBodyTail, emit, ret, hfn, hmut, Ledger.emit] using this
      · have := Moves.responseBodyPassed body endStream .statusContinue hacc hfn
        simpa [onResponseBody, onResponseBodyTail, emit, ret, hfn, hmut, Ledger.emit] using this
  | some fn =>
      have := Moves.responseBodyObserved body endStream fn hacc hfn
      simpa [onResponseBody, callObserver, push, emit, hfn, Ledger.emit] using this

lemma requestHeaders_moves {s : State} (eos : Bool) (hacc : s.accepting = true)
    (hphase : s.phase = .awaitingHeaders) :
    Moves s (.requestHeaders eos)
      { s with phase := if eos then .ended else .receiving }.onRequestHeaders := by
  by_cases hbody : s.filterDef.bodyAware
  · have := Moves.headersDeferred eos hacc hphase hbody
    simpa [onRequestHeaders, hbody, ret, emit] using this
  · have := Moves.headersHandled eos hacc hphase (by simpa using hbody)
    simpa [onRequestHeaders, hbody, push, emit] using this

lemma requestBody_moves {s : State} (endStream : Bool) (hacc : s.accepting = true)
    (hphase : s.phase = .receiving) :
    Moves s (.requestBody endStream)
      ({ s with phase := if endStream then .ended else .receiving }.onRequestBody endStream) := by
  by_cases hbody : s.filterDef.bodyAware
  · cases endStream with
    | true => simpa [onRequestBody, hbody, push, emit] using Moves.bodyHandled hacc hphase hbody
    | false => simpa [onRequestBody, hbody, ret, emit] using Moves.bodyBuffered hacc hphase hbody
  · have hbody' : s.filterDef.bodyAware = false := by simpa using hbody
    cases endStream with
    | true =>
        have := Moves.bodyPassed true true hacc hphase hbody'
        simpa [onRequestBody, hbody, ret, emit] using this
    | false =>
        have := Moves.bodyPassed false s.bodyDone hacc hphase hbody'
        simpa [onRequestBody, hbody, ret, emit] using this

lemma calloutDone_moves {s s' : State} {id : ℕ} {result : HttpCalloutResult} {headers : HeaderSlice}
    {body : List UnsafeEnvoyBuffer} (hdel : s.delivering = true)
    (h : s.calloutDone id result headers body = some s') :
    Moves s (.calloutDone id result headers body) s' := by
  unfold calloutDone at h
  split at h
  · rename_i hid
    obtain rfl := Option.some.inj h
    by_cases hdone : s.streamDone
    · have := Moves.calloutDropped id result headers body hdel hid
      simpa [onHttpCalloutDone, hdone, emit] using this
    · by_cases hwriter : s.hasWriter
      · cases hfn : s.writer.calloutFn with
        | none =>
            have := Moves.calloutDropped id result headers body hdel hid
            simpa [onHttpCalloutDone, hdone, hwriter, emit, Ledger.emit, hfn] using this
        | some fn =>
            have := Moves.calloutContinued id result headers body fn hdel hid
              (by simpa using hdone) hwriter hfn
            simpa [onHttpCalloutDone, hdone, hwriter, emit, Ledger.emit, hfn, push, setWriter,
              Ledger.setWriter] using this
      · have := Moves.calloutDropped id result headers body hdel hid
        simpa [onHttpCalloutDone, hdone, hwriter, emit] using this
  · obtain ⟨p, -, rfl⟩ := Option.map_eq_some_iff.mp h
    exact .doAnswered p.1 p.2 result headers body id hdel

lemma streamEvent_moves {s s' : State} {ev : HTTPStreamEvent} (hdel : s.delivering = true)
    (h : s.streamEvent ev = some s') : Moves s (.streamEvent ev) s' := by
  unfold streamEvent at h
  split at h
  case isFalse => simp at h
  case isTrue hid =>
    split at h
    case isFalse hev =>
      obtain rfl := Option.some.inj h
      have hev' : ev.isFinal = false := by simpa using hev
      have hcb : s.onHttpStream ev = s.onHttpStreamEvent ev := by
        cases ev <;> first | rfl | simp [HTTPStreamEvent.isFinal] at hev'
      rw [hcb]
      by_cases hwriter : s.hasWriter
      · cases hfn : s.writer.streamEventFn with
        | none => simpa [onHttpStreamEvent, hwriter, hfn] using Moves.streamEventDropped ev hdel hid hev'
        | some fn =>
            have := Moves.streamEventRun ev fn hdel hid hev' hwriter hfn
            simpa [onHttpStreamEvent, hwriter, hfn, push] using this
      · simpa [onHttpStreamEvent, hwriter] using Moves.streamEventDropped ev hdel hid hev'
    case isTrue hev =>
      obtain rfl := Option.some.inj h
      by_cases hdone : s.streamDone
      · have hdrop := Moves.streamEndDropped ev hdel hid hev (by simp [hdone])
        cases ev <;> first
          | simpa [onHttpStream, onHttpStreamComplete, onHttpStreamReset, hdone, emit] using hdrop
          | simp [HTTPStreamEvent.isFinal] at hev
      · by_cases hwriter : s.hasWriter
        · cases hfn : s.writer.streamEventFn with
          | none =>
              cases ev with
              | complete id =>
                  have := Moves.streamEndFlushed id hdel hid (by simpa using hdone) hwriter hfn
                  simpa [onHttpStream, onHttpStreamComplete, hdone, hwriter, emit, Ledger.emit, hfn,
                    flush, HTTPStreamEvent.streamID] using this
              | reset id reason =>
                  have := Moves.streamEndDropped (.reset id reason) hdel hid hev
                    fun _ _ => ⟨id, reason, rfl⟩
                  simpa [onHttpStream, onHttpStreamReset, hdone, hwriter, emit, Ledger.emit, hfn]
                    using this
              | headers | data | trailers => simp [HTTPStreamEvent.isFinal] at hev
          | some fn =>
              cases ev with
              | complete id =>
                  have := Moves.streamEndRun (.complete id) .onHttpStreamComplete fn hdel hid hev
                    (.inl rfl) (by simpa using hdone) hwriter hfn
                  simpa [onHttpStream, onHttpStreamComplete, hdone, hwriter, emit, Ledger.emit, hfn,
                    push] using this
              | reset id reason =>
                  have := Moves.streamEndRun (.reset id reason) .onHttpStreamReset fn hdel hid hev
                    (.inr rfl) (by simpa using hdone) hwriter hfn
                  simpa [onHttpStream, onHttpStreamReset, hdone, hwriter, emit, Ledger.emit, hfn,
                    push] using this
              | headers | data | trailers => simp [HTTPStreamEvent.isFinal] at hev
        · have hdrop := Moves.streamEndDropped ev hdel hid hev (by simp [hwriter])
          cases ev <;> first
            | simpa [onHttpStream, onHttpStreamComplete, onHttpStreamReset, hdone, hwriter, emit]
                using hdrop
            | simp [HTTPStreamEvent.isFinal] at hev

lemma runTask_moves {s s' : State} {i : ℕ} {c : Choice} (hidle : s.idle = true)
    (hlive : s.destroyed = false) (h : s.runTask i c = some s') : Moves s (.task i c) s' := by
  unfold runTask at h
  split at h
  · simp at h
  · rename_i htask
    obtain rfl := Option.some.inj h
    exact .taskFlushed i c hidle hlive htask
  · rename_i ch req htask
    unfold runDoCallout at h
    split at h
    · split at h
      · simp at h
      · obtain rfl := Option.some.inj h
        exact .taskCallout i c ch req s.chans _ hidle hlive htask
    · obtain rfl := Option.some.inj h
      exact .taskCallout i c ch req _ s.doCallouts hidle hlive htask

lemma workerStep_moves {s s' : State} {c : Choice} {f : Frame} {rest : List Frame}
    (hstack : s.stack = f :: rest) (h : s.workerStep c f rest = some s') :
    Moves s (.worker c) s' := by
  obtain ⟨code, cb⟩ := f
  cases code with
  | prog p =>
      by_cases hp : p = .ret
      · subst hp
        obtain rfl := Option.some.inj h
        exact .callbackFinished c cb rest hstack
      · have hstep : (if s.nilWriter p then none
            else (s.op (.worker cb) c p).map fun r => { r.2 with stack := ⟨r.1, cb⟩ :: rest }) =
              some s' := by
          rw [← h]
          cases p <;> first | rfl | exact absurd rfl hp
        split at hstep
        · simp at hstep
        · rename_i hnil
          obtain ⟨⟨code, s₁⟩, hop, rfl⟩ := Option.map_eq_some_iff.mp hstep
          have hact := op_acts hop
          have hnext : s.act c p = s.nextAct (.worker c) := by simp [nextAct, hstack]
          rw [hnext] at hact
          exact .workerActs c ⟨.prog p, cb⟩ rest code s₁ hstack (by simpa using hp) rfl
            (op_nilWriter hop (by simpa using hnil)) hact
  | inHttpCallout init k =>
      obtain rfl := Option.some.inj h
      exact .calloutReturned c cb rest init k hstack
  | inStartHttpStream init k =>
      obtain rfl := Option.some.inj h
      exact .streamReturned c cb rest init k hstack
  | inDo ch k =>
      obtain ⟨r, -, rfl⟩ := Option.map_eq_some_iff.mp h
      have hnext : s.nextAct (.worker c) = .silent := by simp [nextAct, hstack]
      exact .workerActs c ⟨.inDo ch k, cb⟩ rest _ s hstack (by simp) rfl
        (fun _ => ⟨⟨_, rfl⟩, .inl rfl⟩) (hnext ▸ .reads _)

lemma goroutineStep_moves {s s' : State} {c : Choice} {code : Code}
    (hgo : s.goroutine = some code) (h : s.goroutineStep c code = some s') :
    Moves s (.goroutine c) s' := by
  cases code with
  | prog p =>
      by_cases hp : p = .ret
      · subst hp
        obtain rfl := Option.some.inj h
        exact .goroutineFinished c hgo
      · have hstep : ((s.op .goroutine c p).map fun r => { r.2 with goroutine := some r.1 }) =
            some s' := by
          rw [← h]
          cases p <;> first | rfl | exact absurd rfl hp
        obtain ⟨⟨code, s₁⟩, hop, rfl⟩ := Option.map_eq_some_iff.mp hstep
        have hact := op_acts hop
        have hnext : s.act c p = s.nextAct (.goroutine c) := by simp [nextAct, hgo]
        rw [hnext] at hact
        exact .goroutineActs c (.prog p) code s₁ hgo (by simpa using hp) hact
  | inHttpCallout init k => simp [goroutineStep] at h
  | inStartHttpStream init k => simp [goroutineStep] at h
  | inDo ch k =>
      obtain ⟨r, -, rfl⟩ := Option.map_eq_some_iff.mp h
      have hnext : s.nextAct (.goroutine c) = .silent := by simp [nextAct, hgo]
      exact .goroutineActs c (.inDo ch k) _ s hgo (by simp) (hnext ▸ .reads _)

/-- **Step inversion.** -/
theorem step_moves {s s' : State} {l : Label} (h : s.step l = some s') : Moves s l s' := by
  cases l with
  | requestHeaders eos =>
      obtain ⟨⟨hacc, hphase⟩, rfl⟩ := by simpa [step] using h
      exact requestHeaders_moves eos hacc hphase
  | requestBody endStream =>
      obtain ⟨⟨hacc, hphase⟩, rfl⟩ := by simpa [step] using h
      exact requestBody_moves endStream hacc hphase
  | requestTrailers =>
      obtain ⟨⟨hacc, hphase⟩, rfl⟩ := by simpa [step] using h
      exact .trailersPassed hacc hphase
  | responseHeaders headers =>
      obtain ⟨hacc, rfl⟩ := by simpa [step] using h
      exact responseHeaders_moves headers hacc
  | responseBody body endStream =>
      obtain ⟨hacc, rfl⟩ := by simpa [step] using h
      exact responseBody_moves body endStream hacc
  | localReply details =>
      obtain ⟨-, rfl⟩ := by simpa [step] using h
      exact localReply_moves s details
  | streamComplete =>
      obtain ⟨hacc, rfl⟩ := by simpa [step] using h
      exact streamComplete_moves hacc
  | destroy =>
      obtain ⟨⟨hidle, hlive⟩, rfl⟩ := by simpa [step] using h
      exact .destroyed hidle hlive
  | calloutDone id result headers body =>
      obtain ⟨hdel, h⟩ := by simpa [step] using h
      exact calloutDone_moves hdel h
  | streamEvent ev =>
      obtain ⟨hdel, h⟩ := by simpa [step] using h
      exact streamEvent_moves hdel h
  | task i c =>
      obtain ⟨⟨hidle, hlive⟩, h⟩ := by simpa [step] using h
      exact runTask_moves hidle hlive h
  | worker c =>
      cases hstack : s.stack with
      | nil => simp [step, hstack] at h
      | cons f rest => exact workerStep_moves hstack (by simpa [step, hstack] using h)
  | goroutine c =>
      cases hgo : s.goroutine with
      | none => simp [step, hgo] at h
      | some code => exact goroutineStep_moves hgo (by simpa [step, hgo] using h)

/-! ## What user code and the ends of callbacks leave alone -/

/-- The two states differ neither in the registration, nor in how far the request has come, nor in
the activations. -/
structure SameHost (s s' : State) : Prop where
  filterDef : s'.filterDef = s.filterDef
  hasWriter : s'.hasWriter = s.hasWriter
  streamDone : s'.streamDone = s.streamDone
  destroyed : s'.destroyed = s.destroyed
  phase : s'.phase = s.phase
  stack : s'.stack = s.stack

lemma Acts.sameHost {s s' : State} {who : Actor} {a : Act} {code : Code}
    (h : Acts s who a code s') : s.SameHost s' := by
  cases h <;> constructor <;> rfl

/-- What a callback records after its user code has returned: a flush with its calls, and a status. -/
def recordsAtFinish : Obs → Bool
  | .call _ | .flushed _ => true
  | .returned .streamComplete | .returned .destroy => false
  | .returned _ => true
  | _ => false

lemma recordsAtFinish_flush (b : Bool) (cs : List HandleCall) :
    (Obs.flushed b :: cs.map .call).all recordsAtFinish = true := by
  simp [recordsAtFinish]

/-- After its user code has returned, a callback drops the event function at most, and records. -/
lemma finish_eq (s : State) (cb : Callback) :
    ∃ fn obs, s.finish cb = (s.setWriter { s.writer with streamEventFn := fn }).emit obs ∧
      obs.all recordsAtFinish = true := by
  have hret : ∀ r, recordsAtFinish (.returned r) = true → ∃ fn obs,
      s.ret r = (s.setWriter { s.writer with streamEventFn := fn }).emit obs ∧
        obs.all recordsAtFinish = true := fun r hr =>
    ⟨s.writer.streamEventFn, [.returned r], rfl, by simp [hr]⟩
  have hflush : ∀ b r, recordsAtFinish (.returned r) = true → ∃ fn obs,
      (s.flush b).ret r = (s.setWriter { s.writer with streamEventFn := fn }).emit obs ∧
        obs.all recordsAtFinish = true := by
    intro b r hr
    refine ⟨s.writer.streamEventFn, (.flushed b :: (s.writer.flush b).map .call) ++ [.returned r],
      ?_, ?_⟩
    · simp [flush, ret, emit, setWriter, Ledger.flush, Ledger.emit, Ledger.setWriter]
    · rw [List.all_append, recordsAtFinish_flush, List.all_cons, hr]
      rfl
  cases cb with
  | onRequestHeaders =>
      simp only [finish, onRequestHeadersTail]
      split_ifs
      · exact hret _ rfl
      · exact hflush _ _ rfl
      · exact hret _ rfl
  | onRequestBody =>
      simp only [finish, onRequestBodyTail]
      split_ifs
      · exact hflush _ _ rfl
      · exact hret _ rfl
  | onResponseHeaders => exact hret _ rfl
  | onResponseBody endStream =>
      simp only [finish, onResponseBodyTail]
      split_ifs <;> exact hret _ rfl
  | onHttpStreamEvent =>
      exact ⟨s.writer.streamEventFn, [], by simp [finish, emit, setWriter, Ledger.emit, Ledger.setWriter],
        rfl⟩
  | onHttpCalloutDone =>
      exact ⟨s.writer.streamEventFn, _, rfl, recordsAtFinish_flush true (s.writer.flush true)⟩
  | onHttpStreamComplete => exact ⟨none, _, rfl, recordsAtFinish_flush _ _⟩
  | onHttpStreamReset => exact ⟨none, _, rfl, recordsAtFinish_flush _ _⟩

lemma finish_sameHost (s : State) (cb : Callback) : s.SameHost (s.finish cb) := by
  obtain ⟨fn, obs, heq, -⟩ := finish_eq s cb
  rw [heq]
  constructor <;> rfl

lemma Moves.filterDef_eq {s s' : State} {l : Label} (h : Moves s l s') :
    s'.filterDef = s.filterDef := by
  cases h with
  | workerActs _ _ _ _ _ _ _ _ _ hact => exact hact.sameHost.filterDef
  | goroutineActs _ _ _ _ _ _ hact => exact hact.sameHost.filterDef
  | callbackFinished => exact (finish_sameHost _ _).filterDef
  | _ => rfl

/-! ## The activations -/

/-- The callbacks whose activations are on the worker thread, the running one first. -/
def callbacks (s : State) : List Callback := s.stack.map (·.cb)

/-- What has to hold for the host to activate `cb`. -/
def MayActivate (s : State) : Callback → Prop
  | .onRequestHeaders =>
    s.stack = [] ∧ s.phase = .awaitingHeaders ∧ s.filterDef.bodyAware = false
  | .onRequestBody => s.stack = [] ∧ s.phase = .receiving ∧ s.filterDef.bodyAware = true
  | .onResponseHeaders | .onResponseBody _ => s.stack = []
  | .onHttpCalloutDone => s.delivering = true ∧ s.callouts ≠ [] ∧ s.hasWriter = true
  | .onHttpStreamEvent | .onHttpStreamComplete | .onHttpStreamReset =>
    s.delivering = true ∧ s.streams ≠ [] ∧ s.hasWriter = true

lemma accepting_stack {s : State} (h : s.accepting = true) : s.stack = [] := by
  obtain ⟨⟨h, -⟩, -⟩ : (s.idle = true ∧ s.streamDone = false) ∧ s.destroyed = false := by
    simpa [accepting] using h
  simpa [idle] using h

/-- A step leaves the activations as they are, activates one callback, or ends the running one. -/
lemma Moves.callbacks_cases {s s' : State} {l : Label} (h : Moves s l s') :
    s'.callbacks = s.callbacks ∨ (∃ cb, s'.callbacks = cb :: s.callbacks ∧ s.MayActivate cb) ∨
      ∃ cb c rest, l = .worker c ∧ s.stack = ⟨.prog .ret, cb⟩ :: rest ∧ s'.stack = rest := by
  cases h with
  | headersHandled _ hacc hphase hbody =>
      exact .inr (.inl ⟨_, rfl, accepting_stack hacc, hphase, hbody⟩)
  | bodyHandled hacc hphase hbody =>
      exact .inr (.inl ⟨_, rfl, accepting_stack hacc, hphase, hbody⟩)
  | responseHeadersObserved _ _ hacc => exact .inr (.inl ⟨_, rfl, accepting_stack hacc⟩)
  | responseBodyObserved _ _ _ hacc => exact .inr (.inl ⟨_, rfl, accepting_stack hacc⟩)
  | calloutContinued _ _ _ _ _ hdel hid _ hwriter =>
      exact .inr (.inl ⟨_, rfl, hdel, List.ne_nil_of_mem hid, hwriter⟩)
  | streamEventRun _ _ hdel hid _ hwriter =>
      exact .inr (.inl ⟨_, rfl, hdel, List.ne_nil_of_mem hid, hwriter⟩)
  | streamEndRun _ cb _ hdel hid _ hcb _ hwriter =>
      refine .inr (.inl ⟨cb, rfl, ?_⟩)
      rcases hcb with rfl | rfl <;> exact ⟨hdel, List.ne_nil_of_mem hid, hwriter⟩
  | workerActs _ f rest _ _ hstack => exact .inl (by simp [callbacks, hstack])
  | calloutReturned _ _ _ _ _ hstack => exact .inl (by simp [callbacks, hstack])
  | streamReturned _ _ _ _ _ hstack => exact .inl (by simp [callbacks, hstack])
  | callbackFinished c cb rest hstack =>
      exact .inr (.inr ⟨cb, c, rest, rfl, hstack, (finish_sameHost _ _).stack⟩)
  | goroutineActs _ _ _ _ _ _ hact => exact .inl (congrArg (List.map _) hact.sameHost.stack)
  | _ => exact .inl rfl

/-- An activation was there before the step, or the step starts it. -/
lemma Moves.mem_callbacks {s s' : State} {l : Label} {cb : Callback} (h : Moves s l s')
    (hmem : cb ∈ s'.callbacks) : cb ∈ s.callbacks ∨ s.MayActivate cb := by
  rcases h.callbacks_cases with hcbs | ⟨cb', hcbs, hmay⟩ | ⟨cb', c, rest, -, hstack, hcbs⟩
  · exact .inl (hcbs ▸ hmem)
  · rw [hcbs] at hmem
    rcases List.mem_cons.mp hmem with rfl | hmem
    · exact .inr hmay
    · exact .inl hmem
  · left
    rw [callbacks, hstack, List.map_cons]
    exact List.mem_cons_of_mem _ (by simpa [callbacks, hcbs] using hmem)

end State

end Luwes.Sahl
