import Luwes.Shared.Api
import Luwes.Sahl.Writer
import Luwes.Sahl.Response

/-!
# The record of a request

Every result about a run is a statement about what happened in it and in which order: which calls
reached the handle, which calls user code made, what each callback returned.  `Obs` is one such
event and a trace is the list of them, oldest first.

A `Ledger` is the Writer of the request together with its trace.  The operations below are the only
ways a step changes either, so what can happen to the queues can be said once for all steps.
-/

namespace Luwes.Sahl

/-- The three asynchronous modes of a request. -/
inductive AsyncOp
  | go
  | callout
  | stream
  deriving DecidableEq, Repr

/-- What a callback of `sahlFilter` returned. -/
inductive Returned
  | requestHeaders (st : HeadersStatus)
  | requestBody (endStream : Bool) (st : BodyStatus)
  | requestTrailers (st : TrailersStatus)
  | responseHeaders (st : HeadersStatus)
  | responseBody (endStream : Bool) (st : BodyStatus)
  | localReply (st : LocalReplyStatus)
  | streamComplete
  | destroy
  deriving DecidableEq, Repr

/-- One event of a run. -/
inductive Obs
  /-- A call reaches the handle. -/
  | call (c : HandleCall)
  /-- User code calls a method that returns at once. -/
  | user (who : Actor) (id : CallId) (c : UserCall)
  /-- `Go` passes its check, or the host accepts a callout or a stream. -/
  | started (who : Actor) (op : AsyncOp)
  /-- The goroutine's function returns, the callout is done, or the stream completes or is
  reset. -/
  | completed (op : AsyncOp)
  /-- `flush` is called. -/
  | flushed (continueReq : Bool)
  /-- The handler is called, from the named callback. -/
  | invoked (cb : Callback)
  /-- The observer is called with this chunk, this value in the context slot, and a Writer that is
  or is not nil. -/
  | observed (cb : Callback) (chunk : ResponseChunk) (ctx : Option ℕ) (hasWriter : Bool)
  /-- `OnResponseBody` is entered; `body` is what `GetChunks` returns. -/
  | responseBody (body : List UnsafeEnvoyBuffer) (endStream : Bool)
  /-- A callback returns. -/
  | returned (r : Returned)
  deriving DecidableEq, Repr

/-- The Writer of a request and everything that happened to the request so far.  `seq` numbers the
next call of user code. -/
structure Ledger where
  request : ℕ
  writer : Writer := Writer.zero
  seq : ℕ := 0
  trace : List Obs := []

namespace Ledger

/-- Record events. -/
def emit (g : Ledger) (obs : List Obs) : Ledger := { g with trace := g.trace ++ obs }

/-- Replace the Writer. -/
def setWriter (g : Ledger) (w : Writer) : Ledger := { g with writer := w }

/-- `OnRequestHeaders` takes a Writer from the pool and points it back at the filter. -/
def acquireWriter (g : Ledger) : Ledger :=
  g.setWriter
    { g.writer.reset g.request g.request with
      calloutCB := some g.request
      streamCB := some g.request }

/-- User code calls a method that returns at once. -/
def userCall (g : Ledger) (who : Actor) (c : UserCall) : Ledger :=
  let id : CallId := ⟨g.request, g.seq⟩
  let r := g.writer.userCall id c
  { g with
    writer := r.1
    seq := g.seq + 1
    trace := g.trace ++ .user who id c :: r.2.map .call }

/-- `w.flush(continueReq)`. -/
def flush (g : Ledger) (continueReq : Bool) : Ledger :=
  g.emit (.flushed continueReq :: (g.writer.flush continueReq).map .call)

/-- `w.flushResponseMutations()`. -/
def flushResponseMutations (g : Ledger) : Ledger :=
  let r := g.writer.flushResponseMutations
  (g.setWriter r.1).emit (r.2.map .call)

end Ledger

end Luwes.Sahl
