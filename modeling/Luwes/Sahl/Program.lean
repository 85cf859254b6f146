import Luwes.Shared.Base
import Mathlib.Data.Int.Notation

/-!
# User code

A sahl filter runs code it does not know: the handler, the continuation of a callout, the event
function of a stream, the response observer and the body of a `Go` goroutine.  All of them are
values of one type, `Prog`, a tree of the calls the code makes on its `Writer`, in which what a
call returns selects the rest of the code.

* `observe` is any read the code makes (of the `Request`, of an attribute, of the clock, of a
  captured variable); the environment answers with any number, so a program may do different
  things in different runs of the same handler.
* A call that panics tells the code so.  Code that recovers goes on; code that does not ends in
  `panic`, which has no step, because an unrecovered panic takes the process down.
* `fn` arguments are the closures handed to `Go`, `HTTPCallout` and `HTTPStream`; they are run
  by whoever the source says runs them, not by the call that receives them.

A statement for every `Prog` is therefore a statement for every handler.
-/

namespace Luwes.Sahl

/-- `HTTPCalloutRequest`. -/
structure HTTPCalloutRequest where
  cluster : GoString
  headers : List (GoString × GoString)
  body : Bytes
  timeoutMs : ℕ
  deriving DecidableEq, Repr

/-- `HTTPStreamRequest`. -/
structure HTTPStreamRequest where
  cluster : GoString
  headers : List (GoString × GoString)
  body : Bytes
  endOfStream : Bool
  timeoutMs : ℕ
  deriving DecidableEq, Repr

/-- `HTTPStreamEvent`, the sealed interface a stream's event function receives. -/
inductive HTTPStreamEvent
  | headers (streamID : ℕ) (headers : HeaderSlice) (endStream : Bool)
  | data (streamID : ℕ) (body : List UnsafeEnvoyBuffer) (endStream : Bool)
  | trailers (streamID : ℕ) (trailers : HeaderSlice)
  | complete (streamID : ℕ)
  | reset (streamID : ℕ) (reason : HttpStreamResetReason)
  deriving DecidableEq, Repr

/-- The stream an event belongs to. -/
def HTTPStreamEvent.streamID : HTTPStreamEvent → ℕ
  | .headers i _ _ | .data i _ _ | .trailers i _ | .complete i | .reset i _ => i

/-- `complete` and `reset` are the two events after which a stream has no more. -/
def HTTPStreamEvent.isFinal : HTTPStreamEvent → Bool
  | .complete _ | .reset _ _ => true
  | _ => false

/-- `HTTPCalloutResponse`, what `Do` returns on success. -/
structure HTTPCalloutResponse where
  result : HttpCalloutResult
  headers : HeaderSlice
  body : List UnsafeEnvoyBuffer
  deriving DecidableEq, Repr

/-- What `Do` returns: a response, the error of a callout that could not start, or the error of
a context that was cancelled first. -/
inductive DoResult
  | resp (r : HTTPCalloutResponse)
  | initErr (init : HttpCalloutInitResult)
  | cancelled
  deriving DecidableEq, Repr

/-- How a call that may panic comes back to the code that made it. -/
inductive Outcome (α : Type)
  | ok (a : α)
  | panicked
  deriving DecidableEq, Repr

/-- The calls that return at once and give nothing back.  `send` is `Send` and `SendBytes`,
which differ only in the type of the body; `setContext` is the store `*chunk.Context = v` of a
response observer. -/
inductive UserCall
  | send (statusCode : ℤ) (body : Bytes)
  | setResponseHeader (key value : GoString)
  | setRequestHeader (key value : GoString)
  | setMetadata (ns key : GoString) (value : MetadataValue)
  | clearRouteCache
  | incrementCounter (id n : ℕ) (tags : List GoString)
  | recordHistogram (id n : ℕ) (tags : List GoString)
  | setResponseBody (newBody : Bytes)
  | appendResponseBody (data : Bytes)
  | setContext (v : ℕ)
  deriving DecidableEq, Repr

namespace UserCall

/-- `Send` and `SendBytes`. -/
def isSend : UserCall → Bool
  | .send _ _ => true
  | _ => false

end UserCall

/-- User code. -/
inductive Prog
  /-- The function returns. -/
  | ret
  /-- A panic that no frame of the user code recovers. -/
  | panic
  /-- A read of the environment. -/
  | observe (k : ℕ → Prog)
  /-- A call that returns at once. -/
  | call (c : UserCall) (k : Prog)
  /-- `w.Go(fn)`. -/
  | go (fn : Prog) (k : Outcome Unit → Prog)
  /-- `w.HTTPCalloutE(req, fn)`; `w.HTTPCallout` ignores the result. -/
  | httpCallout (req : HTTPCalloutRequest)
      (fn : HttpCalloutResult → HeaderSlice → List UnsafeEnvoyBuffer → Prog)
      (k : Outcome HttpCalloutInitResult → Prog)
  /-- `w.HTTPStream(req, fn)`. -/
  | httpStream (req : HTTPStreamRequest) (fn : HTTPStreamEvent → Prog)
      (k : Outcome HttpCalloutInitResult → Prog)
  /-- `w.Do(ctx, req)`. -/
  | doCallout (req : HTTPCalloutRequest) (k : Outcome DoResult → Prog)

/-- `HandlerFunc`.  What the handler reads of its `Request` it gets through `observe`. -/
abbrev HandlerFunc := Prog

/-- `HTTPCalloutFunc`. -/
abbrev HTTPCalloutFunc := HttpCalloutResult → HeaderSlice → List UnsafeEnvoyBuffer → Prog

/-- `HTTPStreamEventFunc`. -/
abbrev HTTPStreamEventFunc := HTTPStreamEvent → Prog

/-- The callbacks of `sahlFilter` in which user code runs on the worker thread.
`onHttpStreamEvent` stands for `OnHttpStreamHeaders`, `OnHttpStreamData` and
`OnHttpStreamTrailers`, which do nothing after the event function returns. -/
inductive Callback
  | onRequestHeaders
  | onRequestBody
  | onResponseHeaders
  | onResponseBody (endStream : Bool)
  | onHttpCalloutDone
  | onHttpStreamEvent
  | onHttpStreamComplete
  | onHttpStreamReset
  deriving DecidableEq, Repr

/-- Whose code makes a call: user code inside a callback, or the body of the goroutine. -/
inductive Actor
  | worker (cb : Callback)
  | goroutine
  deriving DecidableEq, Repr

/-- The two callbacks that run the response observer. -/
def Callback.isObserver : Callback → Bool
  | .onResponseHeaders | .onResponseBody _ => true
  | _ => false

end Luwes.Sahl
