import Luwes.Sahl.Program

/-!
# The Writer (`sahl/writer.go`)

A `Writer` queues what user code asks for and applies it to the handle later, in `flush` or in
`flushResponseMutations`.  Every method is a function from the Writer to the Writer after it and
the calls it makes on the handle, in order; who runs the method, and when, is not decided here.

`flush` is the function everything else is about.  It has three exits:

* a local response deferred by a goroutine is sent and nothing else is applied;
* a Writer that has already responded applies nothing;
* otherwise the queued mutations are applied and, on request, the stream is continued.

It returns no Writer, because it changes none: the queues keep what was applied from them.

The queues hold bytes here.  In the source they hold strings and slices of tags, which may show memory of
the host or of the handler; what comes of that is said in `Luwes.Sahl.HostStrings`.

Each queue entry carries the `CallId` of the call that put it there.  The identity is a ghost: no
function branches on it.  It is what "the same mutation" means in the results about mutations that
are applied twice, or on another request's handle.
-/

namespace Luwes.Sahl

/-! ## What is queued and what reaches the handle -/

/-- The identity of one call of user code: the request whose code made it and its position among
the calls of that request.  A ghost. -/
structure CallId where
  request : ℕ
  seq : ℕ
  deriving DecidableEq, Repr

/-- A queue entry together with the call that queued it. -/
structure Queued (α : Type) where
  val : α
  id : CallId
  deriving DecidableEq, Repr

/-- `headerMut`. -/
structure HeaderMut where
  key : GoString
  value : GoString
  deriving DecidableEq, Repr

/-- `metaMut`. -/
structure MetaMut where
  ns : GoString
  key : GoString
  value : MetadataValue
  deriving DecidableEq, Repr

/-- `counterMut`; `hist` tells a histogram from a counter. -/
structure CounterMut where
  id : ℕ
  n : ℕ
  tags : List GoString
  hist : Bool
  deriving DecidableEq, Repr

/-- `localResponseMut`; `sender` is the ghost identity of the `Send`. -/
structure LocalResponseMut where
  statusCode : UInt32
  headers : List (Queued HeaderMut)
  body : Bytes
  sender : CallId
  deriving DecidableEq, Repr

/-- The calls sahl makes on an `HttpFilterHandle` (and on its request header map). -/
inductive HandleCall
  | headerSet (m : Queued HeaderMut)
  | setMetadata (m : Queued MetaMut)
  | clearRouteCache
  | recordHistogramValue (m : Queued CounterMut)
  | incrementCounterValue (m : Queued CounterMut)
  | continueRequest
  | sendLocalResponse (r : LocalResponseMut) (detail : GoString)
  | httpCallout (req : HTTPCalloutRequest)
  | startHttpStream (req : HTTPStreamRequest)
  | removeResponseHeader (key : GoString)
  | replaceBufferedResponseBody (newBody : Bytes)
  | appendBufferedResponseBody (data : Bytes)
  deriving DecidableEq, Repr

/-! ## The structure -/

/-- `Writer`.  A handle, a scheduler, a callback object and a context are named by the number of
the request they belong to; `none` is a nil pointer or function, and the default of each field is
Go's zero value. -/
structure Writer where
  handle : ℕ := 0
  scheduler : ℕ := 0
  reqMuts : List (Queued HeaderMut) := []
  respHdrMuts : List (Queued HeaderMut) := []
  metaMuts : List (Queued MetaMut) := []
  counterMuts : List (Queued CounterMut) := []
  localReplyDetails : GoString := []
  responded : Bool := false
  routeCleared : Bool := false
  localResp : Option LocalResponseMut := none
  goStarted : Bool := false
  goCtx : Option ℕ := none
  goCancel : Option ℕ := none
  calloutStarted : Bool := false
  calloutFn : Option HTTPCalloutFunc := none
  calloutCB : Option ℕ := none
  streamStarted : Bool := false
  streamEventFn : Option HTTPStreamEventFunc := none
  streamCB : Option ℕ := none

namespace Writer

/-- `Writer.reset`: the queues are emptied and every other field is set. -/
def reset (_w : Writer) (handle scheduler : ℕ) : Writer where
  handle := handle
  scheduler := scheduler
  reqMuts := []
  respHdrMuts := []
  metaMuts := []
  counterMuts := []
  localReplyDetails := []
  responded := false
  routeCleared := false
  localResp := none
  goStarted := false
  goCtx := none
  goCancel := none
  calloutStarted := false
  calloutFn := none
  calloutCB := none
  streamStarted := false
  streamEventFn := none
  streamCB := none

/-- `&Writer{}`, what the pool makes when it is empty. -/
def zero : Writer := {}

/-! ## The methods user code calls -/

/-- `SendBytes`: the first call takes effect.  With a goroutine started the response is kept
for `flush`, otherwise it is sent at once. -/
def sendBytes (w : Writer) (id : CallId) (statusCode : ℤ) (body : Bytes) :
    Writer × List HandleCall :=
  if w.responded then (w, [])
  else
    let resp : LocalResponseMut :=
      { statusCode := UInt32.ofInt statusCode, headers := w.respHdrMuts, body := body, sender := id }
    if w.goStarted then ({ w with responded := true, localResp := some resp }, [])
    else ({ w with responded := true }, [.sendLocalResponse resp (ascii "sahl")])

/-- `SetResponseHeader`. -/
def setResponseHeader (w : Writer) (id : CallId) (key value : GoString) : Writer :=
  if w.responded then w
  else { w with respHdrMuts := w.respHdrMuts ++ [⟨⟨key, value⟩, id⟩] }

/-- `SetRequestHeader`. -/
def setRequestHeader (w : Writer) (id : CallId) (key value : GoString) : Writer :=
  if w.responded then w
  else { w with reqMuts := w.reqMuts ++ [⟨⟨key, value⟩, id⟩] }

/-- `SetMetadata`. -/
def setMetadata (w : Writer) (id : CallId) (ns key : GoString) (value : MetadataValue) : Writer :=
  if w.responded then w
  else { w with metaMuts := w.metaMuts ++ [⟨⟨ns, key, value⟩, id⟩] }

/-- `ClearRouteCache`. -/
def clearRouteCache (w : Writer) : Writer := { w with routeCleared := true }

/-- `IncrementCounter` and `RecordHistogram`: unlike the other queueing methods they do not look
at `responded`. -/
def queueMetric (w : Writer) (id : CallId) (m : CounterMut) : Writer :=
  { w with counterMuts := w.counterMuts ++ [⟨m, id⟩] }

/-- `IncrementCounter`. -/
def incrementCounter (w : Writer) (id : CallId) (metric n : ℕ) (tags : List GoString) : Writer :=
  w.queueMetric id ⟨metric, n, tags, false⟩

/-- `RecordHistogram`. -/
def recordHistogram (w : Writer) (id : CallId) (metric n : ℕ) (tags : List GoString) : Writer :=
  w.queueMetric id ⟨metric, n, tags, true⟩

/-- The method a `UserCall` names.  `setContext` writes to the chunk, not to the Writer. -/
def userCall (w : Writer) (id : CallId) : UserCall → Writer × List HandleCall
  | .send statusCode body => w.sendBytes id statusCode body
  | .setResponseHeader key value => (w.setResponseHeader id key value, [])
  | .setRequestHeader key value => (w.setRequestHeader id key value, [])
  | .setMetadata ns key value => (w.setMetadata id ns key value, [])
  | .clearRouteCache => (w.clearRouteCache, [])
  | .incrementCounter metric n tags => (w.incrementCounter id metric n tags, [])
  | .recordHistogram metric n tags => (w.recordHistogram id metric n tags, [])
  | .setResponseBody newBody => (w, [.replaceBufferedResponseBody newBody])
  | .appendResponseBody data => (w, [.appendBufferedResponseBody data])
  | .setContext _ => (w, [])

/-! ## Starting an asynchronous operation

`HTTPCalloutE` and `HTTPStream` are two functions each, because the host may deliver events
between the moment the handle is called and the moment it returns. -/

/-- `Go` panics when it has been called before; that is its only check. -/
def goPanics (w : Writer) : Bool := w.goStarted

/-- `Go` past its check: the context is the one of request `r`. -/
def startGo (w : Writer) (r : ℕ) : Writer :=
  { w with goStarted := true, goCtx := some r, goCancel := some r }

/-- The checks of `HTTPCalloutE`; `streamStarted` is not among them. -/
def calloutPanics (w : Writer) : Bool := w.calloutStarted || w.goStarted

/-- `HTTPCalloutE` up to the call on the handle. -/
def storeCalloutFn (w : Writer) (fn : HTTPCalloutFunc) : Writer := { w with calloutFn := some fn }

/-- `HTTPCalloutE` after the call on the handle. -/
def calloutInit (w : Writer) (init : HttpCalloutInitResult) : Writer :=
  if init = .success then { w with calloutStarted := true } else { w with calloutFn := none }

/-- The checks of `HTTPStream`. -/
def streamPanics (w : Writer) : Bool := w.streamStarted || w.calloutStarted || w.goStarted

/-- `HTTPStream` up to the call on the handle. -/
def storeStreamEventFn (w : Writer) (fn : HTTPStreamEventFunc) : Writer :=
  { w with streamEventFn := some fn }

/-- `HTTPStream` after the call on the handle. -/
def streamInit (w : Writer) (init : HttpCalloutInitResult) : Writer :=
  if init = .success then { w with streamStarted := true } else { w with streamEventFn := none }

/-- One of the three flags that tell `OnRequestHeaders` an operation is in flight. -/
def asyncStarted (w : Writer) : Bool := w.goStarted || w.calloutStarted || w.streamStarted

/-! ## Applying the queues -/

/-- The call on the handle for one entry of `counterMuts`. -/
def counterCall (m : Queued CounterMut) : HandleCall :=
  if m.val.hist then .recordHistogramValue m else .incrementCounterValue m

lemma counterCall_injective {x y : Queued CounterMut} (h : counterCall x = counterCall y) : x = y := by
  unfold counterCall at h
  split at h <;> split at h
  · exact HandleCall.recordHistogramValue.inj h
  · cases h
  · cases h
  · exact HandleCall.incrementCounterValue.inj h

/-- `flush`. -/
def flush (w : Writer) (continueReq : Bool) : List HandleCall :=
  match w.localResp with
  | some r => [.sendLocalResponse r (ascii "sahl")]
  | none =>
    if w.responded then []
    else
      w.reqMuts.map .headerSet ++ w.metaMuts.map .setMetadata ++
        (if w.routeCleared then [.clearRouteCache] else []) ++ w.counterMuts.map counterCall ++
        (if continueReq then [.continueRequest] else [])

/-- `flushResponseMutations`. -/
def flushResponseMutations (w : Writer) : Writer × List HandleCall :=
  ({ w with metaMuts := [], counterMuts := [] },
    w.metaMuts.map .setMetadata ++ w.counterMuts.map counterCall)

end Writer

end Luwes.Sahl
