import Luwes.Lib.LabelledRun
import Luwes.Sahl.ResponseBody

/-!
# Reading the request body (`sahl/request.go`, `shared/utility`)

The host delivers a request body in chunks.  The buffered body holds the chunks that were to be kept; the
chunk of the callback is in the received body, or it is in the buffered body already, and then the
received body is the buffered one, as `ReceivedBufferedRequestBody` tells.

`readBody` of sahl and `ReadWholeRequestBody` of the utilities are two copies of one algorithm.  They
agree on every handle (`readBody_eq`), and at the end of a stream both return its chunks, each byte once,
however the host cuts its stores into slices (`requestBody_reassembled`).
-/

namespace Luwes.Sahl

open BodyBuffer LabelledRun

variable {β : Type} [BodyBuffer β]

/-- What a handle answers about the request body; `none` is a nil buffer. -/
structure RequestBody (β : Type) where
  bufferedRequestBody : Option β
  receivedRequestBody : Option β
  receivedBufferedRequestBody : Bool

namespace RequestBody

/-- `readBody`, and `Request.Body`; `none` is the panic of a nil buffer.  The sizes are only the capacity
of the slice. -/
def readBody (handle : RequestBody β) : Option Bytes := do
  let buf ← handle.bufferedRequestBody
  let isBuffered := handle.receivedBufferedRequestBody
  let body := appendChunks [] (getChunks buf)
  if !isBuffered then
    let recv ← handle.receivedRequestBody
    return appendChunks body (getChunks recv)
  return body

/-- `utility.ReadWholeRequestBody`. -/
def readWholeRequestBody (handle : RequestBody β) : Option Bytes :=
  getBodyContent handle.bufferedRequestBody handle.receivedRequestBody
    handle.receivedBufferedRequestBody

/-- The two copies of the algorithm are equal. -/
lemma readBody_eq (handle : RequestBody β) : handle.readBody = handle.readWholeRequestBody := by
  obtain ⟨_ | buf, received, isBuffered⟩ := handle
  · rfl
  · cases isBuffered with
    | true => rfl
    | false => cases received <;> rfl

/-- Both read the buffered bytes, and after them those that are only received. -/
lemma readWholeRequestBody_eq (buf recv : β) (isBuffered : Bool) :
    (RequestBody.mk (some buf) (some recv) isBuffered).readWholeRequestBody =
      some (content buf ++ if isBuffered then [] else content recv) := by
  cases isBuffered <;> simp [readWholeRequestBody, getBodyContent, appendChunks_eq, content]

end RequestBody

/-! ## The delivery of a body -/

/-- A chunk arrives.  An earlier one is appended to the buffered body, which is `store` then.  The last one
is a received body of its own, or it is in the buffered body too. -/
inductive BodyEvent (β : Type)
  | earlier (chunk : Bytes) (store : β)
  | last (chunk : Bytes) (received : β)
  | lastBuffered (chunk : Bytes) (store : β)

/-- The bytes of a chunk. -/
def BodyEvent.chunk : BodyEvent β → Bytes
  | .earlier chunk _ | .last chunk _ | .lastBuffered chunk _ => chunk

/-- The host's side of a request body; `last` is what the last chunk made of the received body, and
whether it is the buffered one. -/
structure RequestStream (β : Type) where
  buffered : β
  last : Option (β × Bool) := none

namespace RequestStream

/-- One event.  The host cuts a store into slices as it likes, also those it has had before. -/
def deliver (s : RequestStream β) (e : BodyEvent β) : Option (RequestStream β) :=
  if s.last.isSome then none
  else
    match e with
    | .earlier chunk store =>
      if content store = content s.buffered ++ chunk then some { buffered := store } else none
    | .last chunk received =>
      if content received = chunk then some { s with last := some (received, false) } else none
    | .lastBuffered chunk store =>
      if content store = content s.buffered ++ chunk then
        some { buffered := store, last := some (store, true) }
      else none

/-- The handle in the last callback. -/
def handle (s : RequestStream β) : RequestBody β where
  bufferedRequestBody := some s.buffered
  receivedRequestBody := s.last.map (·.1)
  receivedBufferedRequestBody := (s.last.map (·.2)).getD false

/-- The bytes that have arrived. -/
def bytes (s : RequestStream β) : Bytes :=
  match s.last with
  | none | some (_, true) => content s.buffered
  | some (received, false) => content s.buffered ++ content received

lemma deliver_bytes {s s' : RequestStream β} {e : BodyEvent β} (h : s.deliver e = some s') :
    s'.bytes = s.bytes ++ e.chunk := by
  obtain ⟨buffered, last⟩ := s
  cases last with
  | some x => simp [deliver] at h
  | none =>
      cases e with
      | earlier chunk store =>
          simp only [deliver, Option.isSome_none, Bool.false_eq_true, if_false,
            Option.ite_none_right_eq_some, Option.some.injEq] at h
          obtain ⟨hstore, rfl⟩ := h
          exact hstore
      | last chunk received =>
          simp only [deliver, Option.isSome_none, Bool.false_eq_true, if_false,
            Option.ite_none_right_eq_some, Option.some.injEq] at h
          obtain ⟨hreceived, rfl⟩ := h
          exact congrArg (content buffered ++ ·) hreceived
      | lastBuffered chunk store =>
          simp only [deliver, Option.isSome_none, Bool.false_eq_true, if_false,
            Option.ite_none_right_eq_some, Option.some.injEq] at h
          obtain ⟨hstore, rfl⟩ := h
          exact hstore

/-- The bytes that have arrived are the chunks, in order. -/
lemma run_bytes {s s' : RequestStream β} {es : List (BodyEvent β)} (hrun : run deliver s es = some s') :
    s'.bytes = s.bytes ++ es.flatMap BodyEvent.chunk := by
  induction es generalizing s with
  | nil =>
      cases hrun
      simp
  | cons e es ih =>
      obtain ⟨m, hm, hrest⟩ := run_cons_eq_some.mp hrun
      rw [ih hrest, deliver_bytes hm, List.flatMap_cons, List.append_assoc]

/-- In the last callback, what is read is what has arrived. -/
lemma readWholeRequestBody_eq_bytes {s : RequestStream β} (hlast : s.last ≠ none) :
    s.handle.readWholeRequestBody = some s.bytes := by
  obtain ⟨buffered, _ | ⟨received, isBuffered⟩⟩ := s
  · exact absurd rfl hlast
  · cases isBuffered with
    | true => exact (RequestBody.readWholeRequestBody_eq buffered received true).trans (by simp [bytes])
    | false => exact RequestBody.readWholeRequestBody_eq buffered received false

end RequestStream

/-- **The request body is reassembled exactly.**  After the last chunk, `Request.Body` and
`ReadWholeRequestBody` both return all chunks in order; on any handle at all they return the same. -/
theorem requestBody_reassembled {store : β} {es : List (BodyEvent β)} {s : RequestStream β}
    (hstore : content store = []) (hrun : run RequestStream.deliver { buffered := store } es = some s)
    (hlast : s.last ≠ none) :
    s.handle.readBody = some (es.flatMap BodyEvent.chunk) ∧
      s.handle.readWholeRequestBody = some (es.flatMap BodyEvent.chunk) ∧
      ∀ handle : RequestBody β, handle.readBody = handle.readWholeRequestBody := by
  have hbytes : s.bytes = es.flatMap BodyEvent.chunk := by
    rw [RequestStream.run_bytes hrun, RequestStream.bytes, hstore, List.nil_append]
  have hread : s.handle.readWholeRequestBody = some (es.flatMap BodyEvent.chunk) :=
    hbytes ▸ RequestStream.readWholeRequestBody_eq_bytes hlast
  exact ⟨s.handle.readBody_eq.trans hread, hread, RequestBody.readBody_eq⟩

/-- Two chunks that are buffered, one of them empty, and one that is received. -/
theorem requestBody_reassembled_threeChunks :
    (RequestStream.mk (FakeBodyBuffer.mk (ascii "to")) (some (⟨ascii "ken"⟩, false))).handle.readBody =
      some (ascii "token") :=
  (@requestBody_reassembled FakeBodyBuffer _ ⟨[]⟩
    [.earlier (ascii "to") ⟨ascii "to"⟩, .earlier [] ⟨ascii "to"⟩, .last (ascii "ken") ⟨ascii "ken"⟩]
    _ rfl rfl (by simp)).1

end Luwes.Sahl
