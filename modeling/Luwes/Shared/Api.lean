import Mathlib.Tactic.Common

/-!
# The status contract of `shared/api.go`

The callbacks of an HTTP filter answer with a status, and the host's flow control is nothing
but what `shared/api.go` writes next to each status.  This module holds the status values and,
as predicates on them, the part of that contract the filter layer relies on:

* which `HeadersStatus` stops the headers at this filter (`HeadersStatus.stops`), and which one
  also keeps the host from calling the body and trailers callbacks until the request is
  continued by hand (`HeadersStatus.stopsAll`);
* which `BodyStatus` and `TrailersStatus` let stopped headers go on (`BodyStatus.resumes`,
  `TrailersStatus.resumes`).

`EmptyHttpFilter` supplies the callbacks a filter does not override; the sahl filter inherits
`OnRequestTrailers` from it.
-/

namespace Luwes

/-- `HeadersStatus`; the numeric values of the ABI are not used by the model. -/
inductive HeadersStatus
  /-- `HeadersStatusContinue`: the next filter in the chain goes on. -/
  | statusContinue
  /-- `HeadersStatusStop`: stop at this filter; its body and trailers callbacks are still
  called, and what they return decides whether the chain goes on. -/
  | statusStop
  /-- `HeadersStatusStopAllAndBuffer`: stop and buffer; the body and trailers callbacks are
  *not* called, and only a manual continue resumes the request. -/
  | statusStopAllAndBuffer
  /-- `HeadersStatusStopAllAndWatermark`: as above, with watermarks in place of the buffer
  limit. -/
  | statusStopAllAndWatermark
  deriving DecidableEq, Repr

/-- `BodyStatus`. -/
inductive BodyStatus
  /-- `BodyStatusContinue`: go on; headers stopped with `HeadersStatusStop` go on too. -/
  | statusContinue
  /-- `BodyStatusStopAndBuffer`. -/
  | statusStopAndBuffer
  /-- `BodyStatusStopAndWatermark`. -/
  | statusStopAndWatermark
  /-- `BodyStatusStopNoBuffer`. -/
  | statusStopNoBuffer
  deriving DecidableEq, Repr

/-- `TrailersStatus`. -/
inductive TrailersStatus
  /-- `TrailersStatusContinue`: go on, and with it whatever the earlier callbacks stopped. -/
  | statusContinue
  /-- `TrailersStatusStop`. -/
  | statusStop
  deriving DecidableEq, Repr

/-- `LocalReplyStatus`. -/
inductive LocalReplyStatus
  /-- `LocalReplyStatusContinue`. -/
  | statusContinue
  /-- `LocalReplyStatusContinueAndResetStream`. -/
  | statusContinueAndResetStream
  deriving DecidableEq, Repr

/-! ## What the host does with a status -/

/-- The headers stop at this filter. -/
def HeadersStatus.stops : HeadersStatus → Bool
  | .statusContinue => false
  | _ => true

/-- The host keeps the body and trailers callbacks back until the request is continued. -/
def HeadersStatus.stopsAll : HeadersStatus → Bool
  | .statusStopAllAndBuffer | .statusStopAllAndWatermark => true
  | _ => false

/-- The body, and with it headers stopped earlier, go on to the next filter. -/
def BodyStatus.resumes : BodyStatus → Bool
  | .statusContinue => true
  | _ => false

/-- The trailers, and with them whatever was stopped earlier, go on to the next filter. -/
def TrailersStatus.resumes : TrailersStatus → Bool
  | .statusContinue => true
  | .statusStop => false

/-! ## The inherited callbacks -/

/-- `EmptyHttpFilter.OnRequestTrailers` returns `TrailersStatusDefault`. -/
def EmptyHttpFilter.onRequestTrailers : TrailersStatus := .statusContinue

end Luwes
