import Luwes.Sahl.Program
import Mathlib.Data.Int.Notation

/-!
# The response chunk (`sahl/response.go`)

`sahlFilter` keeps one `ResponseChunk` per request and hands the observer a pointer to it at
every call.  `onResponseHeaders` and `onResponseBody` are modelled by what they write into that
chunk before the observer runs; running the observer is the business of the filter.
-/

namespace Luwes.Sahl

/-- `ResponseChunk`.  `headers` and `context` are references, to the response header map and to
the slot `responseState.ctx`; the model keeps whether they are set.  `data` is `none` for a nil
slice. -/
structure ResponseChunk where
  statusCode : Int64 := 0
  contentType : GoString := []
  responseFlags : GoString := []
  headers : Bool := false
  data : Option Bytes := none
  endStream : Bool := false
  context : Bool := false
  deriving DecidableEq, Repr

/-- `ResponseHandlerFunc`: the code the observer runs, given the chunk it is called with. -/
abbrev ResponseHandlerFunc := ResponseChunk → Prog

/-- `responseState`; `ctx` is the value the observer last stored, `none` for nil. -/
structure ResponseState where
  chunk : ResponseChunk := {}
  ctx : Option ℕ := none
  deriving DecidableEq, Repr

/-- `responseState.reset`. -/
def ResponseState.reset (_s : ResponseState) : ResponseState where
  ctx := none
  chunk := {}

/-- The loop of `parseStatus`: leading digits only, in Go's 64-bit `int`. -/
def parseStatusLoop (n : Int64) : GoString → Int64
  | [] => n
  | c :: s =>
    if c < 48 || c > 57 then n
    else parseStatusLoop (n * 10 + Int64.ofNat (c.toNat - 48)) s

/-- `parseStatus`. -/
def parseStatus (s : GoString) : Int64 := parseStatusLoop 0 s

/-- `headers.GetOneInto(key, &buf) && buf.Len > 0`. -/
def nonEmptyHeader (headers : HeaderMap) (key : String) : Option UnsafeEnvoyBuffer :=
  (headers.getOneInto (ascii key)).filter fun buf => buf.len > 0

/-- `onResponseHeaders` up to the call of the observer: a header that is absent or empty leaves
its field as it was. -/
def ResponseState.onResponseHeaders (s : ResponseState) (headers : HeaderMap) : ResponseState :=
  { s with
    chunk :=
      { statusCode := match nonEmptyHeader headers ":status" with
          | some buf => parseStatus buf.toString
          | none => s.chunk.statusCode
        contentType := match nonEmptyHeader headers "content-type" with
          | some buf => buf.toString
          | none => s.chunk.contentType
        responseFlags := match nonEmptyHeader headers "x-envoy-response-flags" with
          | some buf => buf.toString
          | none => s.chunk.responseFlags
        data := none
        endStream := false
        headers := true
        context := true } }

/-- The `Data` of a body call: the first chunk of the buffer, or an empty non-nil slice when the
buffer has no chunk. -/
def bodyData : List UnsafeEnvoyBuffer → Option Bytes
  | c :: _ => c.toUnsafeBytes
  | [] => some []

/-- `onResponseBody` up to the call of the observer; `body` is what `GetChunks` returns. -/
def ResponseState.onResponseBody (s : ResponseState) (body : List UnsafeEnvoyBuffer)
    (endStream : Bool) : ResponseState :=
  { s with
    chunk :=
      { s.chunk with
        data := bodyData body
        endStream := endStream
        headers := false
        context := true } }

end Luwes.Sahl
