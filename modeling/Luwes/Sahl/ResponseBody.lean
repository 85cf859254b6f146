import Luwes.Shared.BodyBuffer
import Luwes.Sahl.Writer

/-!
# Editing the response body

The host keeps the response body in two stores.  The chunks a filter has asked it to buffer are in
the buffered body; the chunk that triggers the callback is in the received body, unless that chunk
*is* the buffered body, which `ReceivedBufferedResponseBody` tells.

`ReadWholeResponseBody` looks at both stores.  `SetResponseBody` and `AppendResponseBody` write to the
buffered one only, so what is in the received body ends up behind what they have written.
-/

namespace Luwes.Sahl

open BodyBuffer

/-! ## The two stores -/

/-- The received body: a store of its own, or the buffered body again. -/
inductive ReceivedBody (β : Type)
  | own (b : β)
  | buffered

/-- What a handle knows of the response body during `OnResponseBody`; `none` is a nil buffer. -/
structure ResponseBody (β : Type) where
  buffered : Option β
  received : ReceivedBody β

variable {β : Type} [BodyBuffer β]

/-- The loop of `getBodyContent` over the chunks of one store. -/
def appendChunks (body : Bytes) : List UnsafeEnvoyBuffer → Bytes
  | [] => body
  | chunk :: chunks => appendChunks (body ++ chunk.toUnsafeBytes.getD []) chunks

/-- `getBodyContent`; a nil buffer that is looked at panics, which is `none`. -/
def getBodyContent (bufferedBody receivedBody : Option β) (isBuffered : Bool) : Option Bytes :=
  bufferedBody.bind fun buffered =>
    if isBuffered then some (appendChunks [] (getChunks buffered))
    else
      receivedBody.map fun received =>
        appendChunks (appendChunks [] (getChunks buffered)) (getChunks received)

lemma appendChunks_eq (body : Bytes) (chunks : List UnsafeEnvoyBuffer) :
    appendChunks body chunks = body ++ chunkBytes chunks := by
  induction chunks generalizing body with
  | nil => simp [appendChunks]
  | cons chunk chunks ih => simp [appendChunks, ih]

namespace ResponseBody

/-- `ReceivedResponseBody`. -/
def receivedResponseBody (h : ResponseBody β) : Option β :=
  match h.received with
  | .own b => some b
  | .buffered => h.buffered

/-- `ReceivedBufferedResponseBody`. -/
def receivedBufferedResponseBody (h : ResponseBody β) : Bool :=
  match h.received with
  | .own _ => false
  | .buffered => true

/-- `utility.ReadWholeResponseBody`. -/
def readWholeResponseBody (h : ResponseBody β) : Option Bytes :=
  getBodyContent h.buffered h.receivedResponseBody h.receivedBufferedResponseBody

/-- `Writer.SetResponseBody`. -/
def setResponseBody (h : ResponseBody β) (newBody : Bytes) : ResponseBody β :=
  match h.buffered with
  | none => h
  | some body => { h with buffered := some (append (drain body (getSize body)) newBody) }

/-- `Writer.AppendResponseBody`. -/
def appendResponseBody (h : ResponseBody β) (data : Bytes) : ResponseBody β :=
  match h.buffered with
  | none => h
  | some body => { h with buffered := some (append body data) }

/-- What a call on the handle does to the response body. -/
def applyCall (h : ResponseBody β) : HandleCall → ResponseBody β
  | .replaceBufferedResponseBody newBody => h.setResponseBody newBody
  | .appendBufferedResponseBody data => h.appendResponseBody data
  | _ => h

/-- What a call of user code does to the response body. -/
def userCall (h : ResponseBody β) (w : Writer) (id : CallId) (c : UserCall) : ResponseBody β :=
  (w.userCall id c).2.foldl applyCall h

/-- The bytes of the response that are not in the buffered body. -/
def receivedBytes (h : ResponseBody β) : Bytes :=
  match h.received with
  | .own b => content b
  | .buffered => []

/-! ## What is read -/

/-- The whole body is the buffered bytes and after them the received ones. -/
lemma readWholeResponseBody_eq (h : ResponseBody β) :
    h.readWholeResponseBody = h.buffered.map fun body => content body ++ h.receivedBytes := by
  obtain ⟨_ | body, b | _⟩ := h <;>
    simp [readWholeResponseBody, getBodyContent, receivedResponseBody,
      receivedBufferedResponseBody, receivedBytes, appendChunks_eq, content]

variable [LawfulBodyBuffer β]

/-- After `SetResponseBody` the received bytes follow the new body. -/
lemma readWhole_setResponseBody {h : ResponseBody β} {old : Bytes} (newBody : Bytes)
    (hold : h.readWholeResponseBody = some old) :
    (h.setResponseBody newBody).readWholeResponseBody = some (newBody ++ h.receivedBytes) := by
  rw [readWholeResponseBody_eq] at hold
  obtain ⟨body, hbody, -⟩ := Option.map_eq_some_iff.mp hold
  rw [readWholeResponseBody_eq, setResponseBody, hbody]
  simp [receivedBytes]

/-- After `AppendResponseBody` the received bytes follow the appended data. -/
lemma readWhole_appendResponseBody {h : ResponseBody β} {old : Bytes} (data : Bytes)
    (hold : h.readWholeResponseBody = some old) :
    ∃ stored, old = stored ++ h.receivedBytes ∧
      (h.appendResponseBody data).readWholeResponseBody =
        some (stored ++ (data ++ h.receivedBytes)) := by
  rw [readWholeResponseBody_eq] at hold
  obtain ⟨body, hbody, hold⟩ := Option.map_eq_some_iff.mp hold
  refine ⟨content body, hold.symm, ?_⟩
  rw [readWholeResponseBody_eq, appendResponseBody, hbody]
  simp [receivedBytes]

end ResponseBody

/-! ## The two edits -/

/-- **The exact condition.**  `SetResponseBody` replaces the whole body exactly when no byte of it is
outside the buffered body, and `AppendResponseBody` appends to the whole body exactly when it makes
no difference in which order the data and the bytes outside the buffered body stand. -/
theorem responseBody_edit_iff [LawfulBodyBuffer β] (w : Writer) (id : CallId) (h : ResponseBody β)
    (old newBody data : Bytes) (hold : h.readWholeResponseBody = some old) :
    ((h.userCall w id (.setResponseBody newBody)).readWholeResponseBody = some newBody ↔
      h.receivedBytes = []) ∧
    ((h.userCall w id (.appendResponseBody data)).readWholeResponseBody = some (old ++ data) ↔
      data ++ h.receivedBytes = h.receivedBytes ++ data) := by
  constructor
  · have hset : h.userCall w id (.setResponseBody newBody) = h.setResponseBody newBody := rfl
    rw [hset, ResponseBody.readWhole_setResponseBody newBody hold]
    simp
  · have happend : h.userCall w id (.appendResponseBody data) = h.appendResponseBody data := rfl
    obtain ⟨stored, hstored, hread⟩ := ResponseBody.readWhole_appendResponseBody data hold
    rw [happend, hread, hstored, Option.some.injEq, List.append_assoc]
    exact List.append_right_inj stored

/-- A response of two chunks at its end: the first is buffered and the second has been received. -/
def secondChunkReceived : ResponseBody FakeBodyBuffer where
  buffered := some ⟨ascii "to"⟩
  received := .own ⟨ascii "ken"⟩

/-- Replacing the body of a response of two chunks keeps the second one, and appending to it puts
the data between the two. -/
theorem secondChunk_not_edited :
    ¬ ∀ (w : Writer) (id : CallId) (h : ResponseBody FakeBodyBuffer) (old newBody data : Bytes),
      h.readWholeResponseBody = some old →
      (h.userCall w id (.setResponseBody newBody)).readWholeResponseBody = some newBody ∧
        (h.userCall w id (.appendResponseBody data)).readWholeResponseBody =
          some (old ++ data) := by
  intro hall
  have hset := (hall Writer.zero ⟨0, 0⟩ secondChunkReceived _ (ascii "none") [] rfl).1
  exact absurd hset (by decide)

/-- A response that is buffered as a whole and received again. -/
def bufferedAsWhole : ResponseBody FakeBodyBuffer where
  buffered := some ⟨ascii "token"⟩
  received := .buffered

/-- The condition evaluated on that response. -/
theorem responseBody_edit_iff_bufferedAsWhole :
    ((bufferedAsWhole.userCall Writer.zero ⟨0, 0⟩
        (.setResponseBody (ascii "none"))).readWholeResponseBody = some (ascii "none") ↔
      bufferedAsWhole.receivedBytes = []) ∧
    ((bufferedAsWhole.userCall Writer.zero ⟨0, 0⟩
        (.appendResponseBody (ascii "s"))).readWholeResponseBody =
          some (ascii "token" ++ ascii "s") ↔
      ascii "s" ++ bufferedAsWhole.receivedBytes = bufferedAsWhole.receivedBytes ++ ascii "s") :=
  responseBody_edit_iff Writer.zero ⟨0, 0⟩ bufferedAsWhole (ascii "token") (ascii "none") (ascii "s")
    rfl

end Luwes.Sahl
