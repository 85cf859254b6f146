import Luwes.Sahl.Ledger

/-!
# The filter (`sahl/filter.go`)

One request: its `sahlFilter`, its Writer, the user code that is running, and as much of the host
as decides which event comes next.

The worker thread is a stack of activations.  A callback that runs user code pushes a frame; when
the code returns, `State.finish` does what the callback does after the call.  A frame can be inside
a call on the handle (`HTTPCalloutE`, `HTTPStream`), and then the host may deliver events inline, on
top of it.  The goroutine of `Go` runs beside the worker, one call at a time.

A step is labelled by who moves.  Host events are enabled by what the host may do at that moment:
request and response callbacks only between two activations and before `OnStreamComplete`; callout
and stream events only for operations that are in flight, between two activations or inline;
nothing after `OnDestroy`.  The labels leave the host everything else: any order, any delay, any
result.  In particular nothing here keeps the host from calling `OnRequestBody` after a status that
the contract says forbids it; where that matters the flow control is put around these steps.
-/

namespace Luwes.Sahl

/-! ## The state -/

/-- `filterDef`, after `configFactory.Create` has resolved the handler. -/
structure FilterDef where
  handler : HandlerFunc
  responseFn : Option ResponseHandlerFunc := none
  bodyAware : Bool := false
  mutableResponse : Bool := false

/-- A handler that asks an authorization service and leaves the decision to the continuation. -/
def askAuth (fn : HTTPCalloutFunc) : HandlerFunc :=
  .httpCallout { cluster := ascii "auth", headers := [], body := [], timeoutMs := 250 } fn
    fun _ => .ret

/-- The filter of that handler, with a continuation that lets every request pass. -/
def authFilter : FilterDef := { handler := askAuth fun _ _ _ => .ret }

/-- Where an activation is. -/
inductive Code
  /-- About to run the rest of its user code. -/
  | prog (p : Prog)
  /-- Inside `handle.HttpCallout`, which is going to return `init`. -/
  | inHttpCallout (init : HttpCalloutInitResult) (k : Outcome HttpCalloutInitResult → Prog)
  /-- Inside `handle.StartHttpStream`, which is going to return `init`. -/
  | inStartHttpStream (init : HttpCalloutInitResult) (k : Outcome HttpCalloutInitResult → Prog)
  /-- Blocked in `Do` on channel `ch`. -/
  | inDo (ch : ℕ) (k : Outcome DoResult → Prog)

/-- One activation of a callback on the worker thread. -/
structure Frame where
  code : Code
  cb : Callback

/-- The host is inside a call made by this activation and may deliver events inline. -/
def Frame.inHostCall (f : Frame) : Bool :=
  match f.code with
  | .inHttpCallout _ _ | .inStartHttpStream _ _ => true
  | _ => false

/-- A task committed to the scheduler: the final flush of `Go`, or the callout of a `Do`. -/
inductive Task
  | flush
  | doCallout (ch : ℕ) (req : HTTPCalloutRequest)
  deriving DecidableEq, Repr

/-- How far the host has come with the request. -/
inductive RequestPhase
  | awaitingHeaders
  | receiving
  | ended
  deriving DecidableEq, Repr

/-- The state of one request. -/
structure State extends Ledger where
  filterDef : FilterDef
  /-- `f.req != nil`. -/
  hasReq : Bool := false
  /-- `f.writer != nil`. -/
  hasWriter : Bool := false
  respState : ResponseState := {}
  bodyDone : Bool := false
  streamDone : Bool := false
  /-- `OnDestroy` has run. -/
  destroyed : Bool := false
  phase : RequestPhase := .awaitingHeaders
  /-- The activations on the worker thread, the running one first. -/
  stack : List Frame := []
  /-- The goroutine of `Go` while its function has not returned. -/
  goroutine : Option Code := none
  /-- The context of `Go` has been cancelled. -/
  ctxDone : Bool := false
  /-- The tasks committed to the scheduler and not yet run. -/
  tasks : List Task := []
  /-- The channels of the `Do` calls made so far. -/
  chans : List (Option DoResult) := []
  /-- The callouts in flight whose callback is the filter. -/
  callouts : List ℕ := []
  /-- The callouts in flight that were started by a `Do`, with its channel. -/
  doCallouts : List (ℕ × ℕ) := []
  /-- The streams in flight. -/
  streams : List ℕ := []

/-- A filter that `newSahlFilter` has just returned. -/
def State.new (request : ℕ) (d : FilterDef) : State where
  request := request
  filterDef := d

namespace State

/-- Record events. -/
def emit (s : State) (obs : List Obs) : State := { s with toLedger := s.toLedger.emit obs }

/-- Replace the Writer. -/
def setWriter (s : State) (w : Writer) : State := { s with toLedger := s.toLedger.setWriter w }

/-- `w.flush(continueReq)`. -/
def flush (s : State) (continueReq : Bool) : State :=
  { s with toLedger := s.toLedger.flush continueReq }

/-- `w.flushResponseMutations()`. -/
def flushResponseMutations (s : State) : State :=
  { s with toLedger := s.toLedger.flushResponseMutations }

/-- A callback returns. -/
def ret (s : State) (r : Returned) : State := s.emit [.returned r]

/-- A callback calls user code. -/
def push (s : State) (cb : Callback) (p : Prog) : State :=
  { s with stack := ⟨.prog p, cb⟩ :: s.stack }

/-! ## The callbacks -/

/-- `OnRequestHeaders` up to the call of the handler. -/
def onRequestHeaders (s : State) : State :=
  let s : State := { s with toLedger := s.toLedger.acquireWriter, hasReq := true, hasWriter := true }
  if s.filterDef.bodyAware then s.ret (.requestHeaders .statusStopAllAndBuffer)
  else (s.emit [.invoked .onRequestHeaders]).push .onRequestHeaders s.filterDef.handler

/-- `OnRequestHeaders` after the handler. -/
def onRequestHeadersTail (s : State) : State :=
  if s.writer.asyncStarted then s.ret (.requestHeaders .statusStop)
  else if !s.writer.responded then (s.flush false).ret (.requestHeaders .statusContinue)
  else s.ret (.requestHeaders .statusStop)

/-- `OnRequestBody` up to the call of the handler. -/
def onRequestBody (s : State) (endStream : Bool) : State :=
  let s : State := if endStream then { s with bodyDone := true } else s
  if s.filterDef.bodyAware && endStream then
    (s.emit [.invoked .onRequestBody]).push .onRequestBody s.filterDef.handler
  else if s.filterDef.bodyAware then s.ret (.requestBody endStream .statusStopAndBuffer)
  else s.ret (.requestBody endStream .statusContinue)

/-- `OnRequestBody` after the handler: unlike `OnRequestHeaders` it does not look at the three
flags, and it returns the same status on both sides of `responded`. -/
def onRequestBodyTail (s : State) : State :=
  if !s.writer.responded then (s.flush false).ret (.requestBody true .statusContinue)
  else s.ret (.requestBody true .statusContinue)

/-- `OnRequestTrailers`, inherited from `EmptyHttpFilter`. -/
def onRequestTrailers (s : State) : State :=
  s.ret (.requestTrailers EmptyHttpFilter.onRequestTrailers)

/-- Call the observer with the chunk as it now is. -/
def callObserver (s : State) (cb : Callback) (fn : ResponseHandlerFunc) : State :=
  (s.emit [.observed cb s.respState.chunk s.respState.ctx s.hasWriter]).push cb
    (fn s.respState.chunk)

/-- `OnResponseHeaders` up to the call of the observer. -/
def onResponseHeaders (s : State) (headers : HeaderMap) : State :=
  match s.filterDef.responseFn with
  | none => s.ret (.responseHeaders .statusContinue)
  | some fn =>
    let s : State := { s with respState := s.respState.onResponseHeaders headers }
    let s : State :=
      if s.filterDef.mutableResponse then
        s.emit [.call (.removeResponseHeader (ascii "content-length"))]
      else s
    s.callObserver .onResponseHeaders fn

/-- The end of `OnResponseBody`. -/
def onResponseBodyTail (s : State) (endStream : Bool) : State :=
  if s.filterDef.mutableResponse && !endStream then
    s.ret (.responseBody endStream .statusStopAndBuffer)
  else s.ret (.responseBody endStream .statusContinue)

/-- `OnResponseBody` up to the call of the observer. -/
def onResponseBody (s : State) (body : List UnsafeEnvoyBuffer) (endStream : Bool) : State :=
  let s : State := s.emit [.responseBody body endStream]
  match s.filterDef.responseFn with
  | none => s.onResponseBodyTail endStream
  | some fn =>
    let s : State := { s with respState := s.respState.onResponseBody body endStream }
    s.callObserver (.onResponseBody endStream) fn

/-- `OnHttpCalloutDone` up to the call of the continuation. -/
def onHttpCalloutDone (s : State) (result : HttpCalloutResult) (headers : HeaderSlice)
    (body : List UnsafeEnvoyBuffer) : State :=
  if s.streamDone then s
  else if !s.hasWriter then s
  else match s.writer.calloutFn with
    | none => s
    | some fn =>
      (s.setWriter { s.writer with calloutFn := none }).push .onHttpCalloutDone
        (fn result headers body)

/-- `OnHttpStreamHeaders`, `OnHttpStreamData` and `OnHttpStreamTrailers`: they do not look at
`streamDone`. -/
def onHttpStreamEvent (s : State) (ev : HTTPStreamEvent) : State :=
  if !s.hasWriter then s
  else match s.writer.streamEventFn with
    | none => s
    | some fn => s.push .onHttpStreamEvent (fn ev)

/-- `OnHttpStreamComplete` up to the call of the event function; without one it flushes. -/
def onHttpStreamComplete (s : State) (ev : HTTPStreamEvent) : State :=
  if s.streamDone then s
  else if !s.hasWriter then s
  else match s.writer.streamEventFn with
    | none => s.flush true
    | some fn => s.push .onHttpStreamComplete (fn ev)

/-- `OnHttpStreamReset` up to the call of the event function. -/
def onHttpStreamReset (s : State) (ev : HTTPStreamEvent) : State :=
  if s.streamDone then s
  else if !s.hasWriter then s
  else match s.writer.streamEventFn with
    | none => s
    | some fn => s.push .onHttpStreamReset (fn ev)

/-- The `OnHttpStream*` callback an event goes to. -/
def onHttpStream (s : State) (ev : HTTPStreamEvent) : State :=
  match ev with
  | .headers _ _ _ | .data _ _ _ | .trailers _ _ => s.onHttpStreamEvent ev
  | .complete _ => s.onHttpStreamComplete ev
  | .reset _ _ => s.onHttpStreamReset ev

/-- `OnLocalReply`. -/
def onLocalReply (s : State) (details : UnsafeEnvoyBuffer) : State :=
  let s : State :=
    if s.hasWriter && details.len > 0 then
      s.setWriter { s.writer with localReplyDetails := details.toString }
    else s
  s.ret (.localReply .statusContinue)

/-- `f.writer.goCancel()`, when there is one to call. -/
def cancelGo (s : State) : State :=
  if s.hasWriter && s.writer.goCancel.isSome then { s with ctxDone := true } else s

/-- `OnStreamComplete`. -/
def onStreamComplete (s : State) : State :=
  let s : State := { s with streamDone := true }
  let s : State :=
    if s.filterDef.responseFn.isSome && s.hasWriter then s.flushResponseMutations else s
  s.cancelGo.ret .streamComplete

/-- `OnDestroy`.  The Writer goes back to its pool as it is; a goroutine may still hold it. -/
def onDestroy (s : State) : State :=
  { s with hasReq := false, hasWriter := false, respState := s.respState.reset, destroyed := true }.ret
    .destroy

/-- What a callback does after its user code has returned. -/
def finish (s : State) : Callback → State
  | .onRequestHeaders => s.onRequestHeadersTail
  | .onRequestBody => s.onRequestBodyTail
  | .onResponseHeaders => s.ret (.responseHeaders .statusContinue)
  | .onResponseBody endStream => s.onResponseBodyTail endStream
  | .onHttpCalloutDone => s.flush true
  | .onHttpStreamEvent => s
  | .onHttpStreamComplete => (s.setWriter { s.writer with streamEventFn := none }).flush true
  | .onHttpStreamReset =>
    (s.setWriter { s.writer with streamEventFn := none }).flush (!s.writer.responded)

/-! ## One call of user code -/

/-- What the environment decides when user code takes a step: the answer to a read, the result and
the identifier a callout or stream gets from the host, whether a blocked `Do` sees its context
cancelled first, and what the buffers of its response hold when it wakes up. -/
structure Choice where
  answer : ℕ := 0
  init : HttpCalloutInitResult := .success
  id : ℕ := 0
  cancel : Bool := false
  headers : HeaderSlice := []
  body : List UnsafeEnvoyBuffer := []
  deriving DecidableEq, Repr

/-- What comes out of a `Do`.  A response comes with the host's buffers, which are kept for the hook that has
delivered them only (`Luwes.Sahl.DoContents`): its bytes are what is there by now.  Code that looks again
later does so with `observe`. -/
def Choice.shown (c : Choice) : DoResult → DoResult
  | .resp r => .resp { result := r.result, headers := c.headers, body := c.body }
  | .initErr init => .initErr init
  | .cancelled => .cancelled

/-- User code calls a method that returns at once. -/
def userCall (s : State) (who : Actor) (c : UserCall) : State :=
  let s : State := { s with toLedger := s.toLedger.userCall who c }
  match c with
  | .setContext v => { s with respState := { s.respState with ctx := some v } }
  | _ => s

/-- The identifiers of the callouts in flight. -/
def calloutIds (s : State) : List ℕ := s.callouts ++ s.doCallouts.map (·.1)

/-- `Go` past its check. -/
def startGo (s : State) (who : Actor) (fn : Prog) : State :=
  { (s.setWriter (s.writer.startGo s.request)).emit [.started who .go] with
    goroutine := some (.prog fn) }

/-- `HTTPCalloutE` past its checks, up to the moment the host has decided on the callout. -/
def beginCallout (s : State) (who : Actor) (req : HTTPCalloutRequest) (fn : HTTPCalloutFunc)
    (init : HttpCalloutInitResult) (id : ℕ) : State :=
  let s := (s.setWriter (s.writer.storeCalloutFn fn)).emit [.call (.httpCallout req)]
  if init = .success then { s.emit [.started who .callout] with callouts := id :: s.callouts } else s

/-- `HTTPStream` past its checks, up to the moment the host has decided on the stream. -/
def beginStream (s : State) (who : Actor) (req : HTTPStreamRequest) (fn : HTTPStreamEventFunc)
    (init : HttpCalloutInitResult) (id : ℕ) : State :=
  let s := (s.setWriter (s.writer.storeStreamEventFn fn)).emit [.call (.startHttpStream req)]
  if init = .success then { s.emit [.started who .stream] with streams := id :: s.streams } else s

/-- `Do` past its check: the callout is scheduled and the caller blocks on a new channel. -/
def beginDo (s : State) (req : HTTPCalloutRequest) : State :=
  { s with chans := s.chans ++ [none], tasks := s.tasks ++ [.doCallout s.chans.length req] }

/-- One call of user code.  The host gives no two callouts, and no two streams, in flight the same
identifier. -/
def op (s : State) (who : Actor) (c : Choice) : Prog → Option (Code × State)
  | .ret => none
  | .panic => none
  | .observe k => some (.prog (k c.answer), s)
  | .call u k => some (.prog k, s.userCall who u)
  | .go fn k =>
    if s.writer.goPanics then some (.prog (k .panicked), s)
    else some (.prog (k (.ok ())), s.startGo who fn)
  | .httpCallout req fn k =>
    if s.writer.calloutPanics then some (.prog (k .panicked), s)
    else if c.id ∈ s.calloutIds then none
    else some (.inHttpCallout c.init k, s.beginCallout who req fn c.init c.id)
  | .httpStream req fn k =>
    if s.writer.streamPanics then some (.prog (k .panicked), s)
    else if c.id ∈ s.streams then none
    else some (.inStartHttpStream c.init k, s.beginStream who req fn c.init c.id)
  | .doCallout req k =>
    if !s.writer.goStarted then some (.prog (k .panicked), s)
    else some (.inDo s.chans.length k, s.beginDo req)

/-- A `Do` wakes up, with what is on its channel or with its context cancelled. -/
def wake (s : State) (c : Choice) (ch : ℕ) : Option DoResult :=
  if c.cancel then some .cancelled else (s.chans[ch]?).join.map c.shown

/-- The code goes through a nil Writer. -/
def nilWriter (s : State) : Prog → Bool
  | .ret | .panic | .observe _ | .call (.setContext _) _ => false
  | _ => !s.hasWriter

/-! ## Steps -/

/-- Who moves. -/
inductive Label
  | requestHeaders (endOfStream : Bool)
  | requestBody (endStream : Bool)
  | requestTrailers
  | responseHeaders (headers : HeaderMap)
  | responseBody (body : List UnsafeEnvoyBuffer) (endStream : Bool)
  | localReply (details : UnsafeEnvoyBuffer)
  | streamComplete
  | destroy
  /-- The host delivers the done event of callout `id`. -/
  | calloutDone (id : ℕ) (result : HttpCalloutResult) (headers : HeaderSlice)
      (body : List UnsafeEnvoyBuffer)
  /-- The host delivers a stream event. -/
  | streamEvent (ev : HTTPStreamEvent)
  /-- The host runs the `i`-th task of the scheduler. -/
  | task (i : ℕ) (c : Choice)
  /-- The running activation takes a step. -/
  | worker (c : Choice)
  /-- The goroutine takes a step. -/
  | goroutine (c : Choice)

/-- The worker thread is between two activations. -/
def idle (s : State) : Bool := s.stack.isEmpty

/-- The host may issue a request or response callback. -/
def accepting (s : State) : Bool := s.idle && !s.streamDone && !s.destroyed

/-- The host may deliver a callout or stream event. -/
def delivering (s : State) : Bool :=
  !s.destroyed &&
    match s.stack with
    | [] => true
    | f :: _ => f.inHostCall

/-- The done event of a callout of a `Do` goes to its channel. -/
def deliverDo (s : State) (id ch : ℕ) (r : HTTPCalloutResponse) : State :=
  { s with
    doCallouts := s.doCallouts.erase (id, ch)
    chans := s.chans.set ch (some (.resp r)) }

/-- A callout event. -/
def calloutDone (s : State) (id : ℕ) (result : HttpCalloutResult) (headers : HeaderSlice)
    (body : List UnsafeEnvoyBuffer) : Option State :=
  if id ∈ s.callouts then
    some (({ s with callouts := s.callouts.erase id }.emit [.completed .callout]).onHttpCalloutDone
      result headers body)
  else
    (s.doCallouts.find? fun p => p.1 = id).map fun p => s.deliverDo p.1 p.2 ⟨result, headers, body⟩

/-- A stream event. -/
def streamEvent (s : State) (ev : HTTPStreamEvent) : Option State :=
  if ev.streamID ∈ s.streams then
    if ev.isFinal then
      some (({ s with streams := s.streams.erase ev.streamID }.emit
        [.completed .stream]).onHttpStream ev)
    else some (s.onHttpStream ev)
  else none

/-- The scheduled callout of a `Do`: a callout that cannot start answers on the channel at once. -/
def runDoCallout (s : State) (c : Choice) (ch : ℕ) (req : HTTPCalloutRequest) : Option State :=
  let s' := s.emit [.call (.httpCallout req)]
  if c.init = .success then
    if c.id ∈ s.calloutIds then none
    else some { s' with doCallouts := (c.id, ch) :: s'.doCallouts }
  else some { s' with chans := s'.chans.set ch (some (.initErr c.init)) }

/-- A scheduled task. -/
def runTask (s : State) (i : ℕ) (c : Choice) : Option State :=
  match s.tasks[i]? with
  | none => none
  | some .flush => some ({ s with tasks := s.tasks.eraseIdx i }.flush true)
  | some (.doCallout ch req) => { s with tasks := s.tasks.eraseIdx i }.runDoCallout c ch req

/-- The running activation takes a step; `rest` is the stack below it. -/
def workerStep (s : State) (c : Choice) (f : Frame) (rest : List Frame) : Option State :=
  match f.code with
  | .prog .ret => some ({ s with stack := rest }.finish f.cb)
  | .prog p =>
    if s.nilWriter p then none
    else (s.op (.worker f.cb) c p).map fun r => { r.2 with stack := ⟨r.1, f.cb⟩ :: rest }
  | .inHttpCallout init k =>
    some { s.setWriter (s.writer.calloutInit init) with
      stack := ⟨.prog (k (.ok init)), f.cb⟩ :: rest }
  | .inStartHttpStream init k =>
    some { s.setWriter (s.writer.streamInit init) with
      stack := ⟨.prog (k (.ok init)), f.cb⟩ :: rest }
  | .inDo ch k =>
    (s.wake c ch).map fun r => { s with stack := ⟨.prog (k (.ok r)), f.cb⟩ :: rest }

/-- The goroutine takes a step.  When its function returns, the flush is scheduled and the deferred
`cancel` runs; these three are one step, with which the goroutine has ended. -/
def goroutineStep (s : State) (c : Choice) : Code → Option State
  | .prog .ret =>
    some { s.emit [.completed .go] with
      goroutine := none
      ctxDone := true
      tasks := s.tasks ++ [.flush] }
  | .prog p => (s.op .goroutine c p).map fun r => { r.2 with goroutine := some r.1 }
  | .inDo ch k => (s.wake c ch).map fun r => { s with goroutine := some (.prog (k (.ok r))) }
  | .inHttpCallout _ _ => none
  | .inStartHttpStream _ _ => none

/-- One step of the request. -/
def step (s : State) : Label → Option State
  | .requestHeaders endOfStream =>
    if s.accepting && s.phase = .awaitingHeaders then
      some { s with phase := if endOfStream then .ended else .receiving }.onRequestHeaders
    else none
  | .requestBody endStream =>
    if s.accepting && s.phase = .receiving then
      some ({ s with phase := if endStream then .ended else .receiving }.onRequestBody endStream)
    else none
  | .requestTrailers =>
    if s.accepting && s.phase = .receiving then
      some { s with phase := .ended }.onRequestTrailers
    else none
  | .responseHeaders headers => if s.accepting then some (s.onResponseHeaders headers) else none
  | .responseBody body endStream =>
    if s.accepting then some (s.onResponseBody body endStream) else none
  | .localReply details => if !s.destroyed then some (s.onLocalReply details) else none
  | .streamComplete => if s.accepting then some s.onStreamComplete else none
  | .destroy => if s.idle && !s.destroyed then some s.onDestroy else none
  | .calloutDone id result headers body =>
    if s.delivering then s.calloutDone id result headers body else none
  | .streamEvent ev => if s.delivering then s.streamEvent ev else none
  | .task i c => if s.idle && !s.destroyed then s.runTask i c else none
  | .worker c =>
    match s.stack with
    | [] => none
    | f :: rest => s.workerStep c f rest
  | .goroutine c =>
    match s.goroutine with
    | none => none
    | some code => s.goroutineStep c code

end State

end Luwes.Sahl
