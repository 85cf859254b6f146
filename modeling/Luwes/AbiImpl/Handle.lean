import Luwes.AbiImpl.Scheduler
import Luwes.Shared.Base

/-!
# The handles (`abi_impl/internal.go`, `abi_impl/network.go`)

A handle stands between the host and one filter, or one filter configuration.  The host calls the
exported hooks, which look at the handle to decide which Go value hears of it, and the filter calls
the handle's methods, most of which pass the call on with the handle's host pointer.

This module holds the three handle types with their callback tables, and all of
`dymHttpFilterHandle`: its fields, what its methods do to them, and its hooks.  A definition here is
one function of the source on one handle.  The pool of handles, the managers and the order of the
calls are the business of the modules that use it.

`ω` is the type of the Go values a handle holds without looking inside: plugins, callbacks, tasks.
-/

namespace Luwes.AbiImpl

open Scheduler (DymScheduler)

variable {ω : Type}

/-! ## Callback tables -/

/-- The two kinds of operation that answer through a callback. -/
inductive TableKind
  | callout
  | stream
  deriving DecidableEq, Repr

/-- What the host reports about a callout or a stream. -/
inductive HostEvent
  | calloutDone (result : HttpCalloutResult) (headers : HeaderSlice)
      (chunks : List UnsafeEnvoyBuffer)
  | streamHeaders (headers : HeaderSlice) (endOfStream : Bool)
  | streamData (data : List UnsafeEnvoyBuffer) (endOfStream : Bool)
  | streamTrailers (trailers : HeaderSlice)
  | streamComplete
  | streamReset (reason : HttpStreamResetReason)
  deriving DecidableEq, Repr

/-- The kind of operation an event is about. -/
def HostEvent.kind : HostEvent → TableKind
  | .calloutDone _ _ _ => .callout
  | _ => .stream

/-- The events after which there is no more about the operation. -/
def HostEvent.isFinal : HostEvent → Bool
  | .calloutDone _ _ _ | .streamComplete | .streamReset _ => true
  | _ => false

/-- A Go map from identifiers to callbacks.  A nil map and an empty one are read alike. -/
abbrev CallbackTable (ω : Type) := UInt64 → Option ω

namespace CallbackTable

/-- What every init call does after the host has answered. -/
def register (t : CallbackTable ω) (result : HttpCalloutInitResult) (id : UInt64) (cb : ω) :
    CallbackTable ω :=
  if result = .success then Function.update t id (some cb) else t

/-- What every hook does: look the callback up, and delete it if the event is the last one. -/
def deliver (t : CallbackTable ω) (id : UInt64) (isFinal : Bool) : Option ω × CallbackTable ω :=
  (t id, if isFinal then Function.update t id none else t)

@[simp] lemma deliver_fst (t : CallbackTable ω) (id : UInt64) (isFinal : Bool) :
    (t.deliver id isFinal).1 = t id := rfl

end CallbackTable

/-- What an init call returns: the host's identifier counts only on success. -/
def initReturn (result : HttpCalloutInitResult) (id : UInt64) : HttpCalloutInitResult × UInt64 :=
  if result = .success then (result, id) else (result, 0)

/-! ## `dymHttpFilterHandle` -/

/-- `dymHeaderMap`; the header types are 0 to 3 in the order request headers, request trailers,
response headers, response trailers. -/
structure DymHeaderMap where
  hostPluginPtr : ℕ := 0
  headerType : ℕ := 0
  deriving DecidableEq, Repr

/-- `dymBodyBuffer`; the buffer types are 0 to 3 in the order received and buffered request body,
received and buffered response body. -/
structure DymBodyBuffer where
  hostPluginPtr : ℕ := 0
  bufferType : ℕ := 0
  deriving DecidableEq, Repr

/-- `dymHttpFilterHandle`, with Go's zero values. -/
structure DymHttpFilterHandle (ω : Type) where
  hostPluginPtr : ℕ := 0
  requestHeaderMap : DymHeaderMap := {}
  responseHeaderMap : DymHeaderMap := {}
  requestTrailerMap : DymHeaderMap := {}
  responseTrailerMap : DymHeaderMap := {}
  receivedRequestBody : DymBodyBuffer := {}
  receivedResponseBody : DymBodyBuffer := {}
  bufferedRequestBody : DymBodyBuffer := {}
  bufferedResponseBody : DymBodyBuffer := {}
  plugin : Option ω := none
  scheduler : Option (DymScheduler ω) := none
  streamCompleted : Bool := false
  streamDestoried : Bool := false
  localResponseSent : Bool := false
  calloutCallbacks : CallbackTable ω := fun _ => none
  streamCallbacks : CallbackTable ω := fun _ => none
  recordedSharedData : List ℕ := []
  downstreamWatermarkCallbacks : Option ω := none

namespace DymHttpFilterHandle

/-- `HttpCallout`, after the host's call has returned. -/
def httpCallout (h : DymHttpFilterHandle ω) (result : HttpCalloutInitResult) (calloutID : UInt64)
    (cb : ω) : (HttpCalloutInitResult × UInt64) × DymHttpFilterHandle ω :=
  (initReturn result calloutID,
    { h with calloutCallbacks := h.calloutCallbacks.register result calloutID cb })

/-- `StartHttpStream`, after the host's call has returned. -/
def startHttpStream (h : DymHttpFilterHandle ω) (result : HttpCalloutInitResult)
    (streamID : UInt64) (cb : ω) : (HttpCalloutInitResult × UInt64) × DymHttpFilterHandle ω :=
  (initReturn result streamID,
    { h with streamCallbacks := h.streamCallbacks.register result streamID cb })

/-- `on_http_filter_http_callout_done`: the callback that is called, and the handle. -/
def onHttpCalloutDone (h : DymHttpFilterHandle ω) (calloutID : UInt64) :
    Option ω × DymHttpFilterHandle ω :=
  if h.streamCompleted then (none, h)
  else
    let r := h.calloutCallbacks.deliver calloutID true
    (r.1, { h with calloutCallbacks := r.2 })

/-- `on_http_filter_http_stream_headers`, `_data`, `_trailers` (`isFinal = false`), `_complete` and
`_reset` (`isFinal = true`). -/
def onHttpStream (h : DymHttpFilterHandle ω) (streamID : UInt64) (isFinal : Bool) :
    Option ω × DymHttpFilterHandle ω :=
  if h.streamCompleted then (none, h)
  else
    let r := h.streamCallbacks.deliver streamID isFinal
    (r.1, { h with streamCallbacks := r.2 })

/-- The hook for an event of a callout or stream. -/
def onHostEvent (h : DymHttpFilterHandle ω) (id : UInt64) (ev : HostEvent) :
    Option ω × DymHttpFilterHandle ω :=
  match ev.kind with
  | .callout => h.onHttpCalloutDone id
  | .stream => h.onHttpStream id ev.isFinal

/-- What `on_http_filter_stream_complete` does to the handle before it calls the plugin. -/
def onStreamComplete (h : DymHttpFilterHandle ω) : DymHttpFilterHandle ω :=
  match h.plugin with
  | none => h
  | some _ => { h with streamCompleted := true }

/-- `reset`; `none` is one of its two panics. -/
def reset (h : DymHttpFilterHandle ω) (hostPluginPtr : ℕ) : Option (DymHttpFilterHandle ω) :=
  if h.plugin.isSome || h.scheduler.isSome then none
  else
    some
      { h with
        hostPluginPtr := hostPluginPtr
        requestHeaderMap := ⟨hostPluginPtr, 0⟩
        requestTrailerMap := ⟨hostPluginPtr, 1⟩
        responseHeaderMap := ⟨hostPluginPtr, 2⟩
        responseTrailerMap := ⟨hostPluginPtr, 3⟩
        receivedRequestBody := ⟨hostPluginPtr, 0⟩
        bufferedRequestBody := ⟨hostPluginPtr, 1⟩
        receivedResponseBody := ⟨hostPluginPtr, 2⟩
        bufferedResponseBody := ⟨hostPluginPtr, 3⟩
        plugin := none
        scheduler := none
        streamCompleted := false
        streamDestoried := false
        localResponseSent := false
        calloutCallbacks := fun _ => none
        streamCallbacks := fun _ => none
        recordedSharedData := []
        downstreamWatermarkCallbacks := none }

/-- A handle that comes straight from the pool's `New`, after `reset`. -/
def fresh (hostPluginPtr : ℕ) : DymHttpFilterHandle ω :=
  ((({} : DymHttpFilterHandle ω).reset hostPluginPtr).getD {})

/-- **`reset` clears every field**: what it makes of a handle does not depend on the handle. -/
lemma reset_eq (h : DymHttpFilterHandle ω) (hostPluginPtr : ℕ) :
    h.reset hostPluginPtr =
      if h.plugin.isSome || h.scheduler.isSome then none else some (fresh hostPluginPtr) := by
  rw [reset]
  split <;> rfl

/-! ### What the filter does with its handle -/

/-- The header maps and body buffers a filter can ask for. -/
inductive View
  | requestHeaders
  | requestTrailers
  | responseHeaders
  | responseTrailers
  | receivedRequestBody
  | bufferedRequestBody
  | receivedResponseBody
  | bufferedResponseBody
  deriving DecidableEq, Repr

/-- What a plugin is called with. -/
inductive PluginCall
  | onRequestHeaders (headers : DymHeaderMap) (endOfStream : Bool)
  | onRequestBody (body : DymBodyBuffer) (endOfStream : Bool)
  | onRequestTrailers (trailers : DymHeaderMap)
  | onResponseHeaders (headers : DymHeaderMap) (endOfStream : Bool)
  | onResponseBody (body : DymBodyBuffer) (endOfStream : Bool)
  | onResponseTrailers (trailers : DymHeaderMap)
  | onLocalReply (responseCode : UInt32) (details : UnsafeEnvoyBuffer) (resetImminent : Bool)
  | onStreamComplete
  | onDestroy
  deriving DecidableEq, Repr

/-- What anyone can see a handle do. -/
inductive Effect (ω : Type)
  | plugin (plugin : ω) (c : PluginCall)
  | callback (cb : ω) (id : UInt64) (ev : HostEvent)
  | task (task : ω)
  | watermark (cbs : ω) (above : Bool)
  /-- A function of the host is called with the handle's pointer. -/
  | host (hostPluginPtr : ℕ) (method : GoString)
  /-- A task is committed to the host's scheduler. -/
  | commit (schedulerPtr : ℕ) (taskID : UInt64)
  | headerMap (m : DymHeaderMap)
  | bodyBuffer (b : DymBodyBuffer)
  | started (r : HttpCalloutInitResult × UInt64)
  /-- Shared data is taken out of the manager. -/
  | cleared (pointers : List ℕ)
  deriving DecidableEq, Repr

/-- A method of the handle, with the answers of the host.  `forward` stands for all the methods that
only call the host with the handle's pointer. -/
inductive Method (ω : Type)
  | view (v : View)
  | forward (name : GoString)
  | sendLocalResponse
  | getScheduler (schedulerPtr : ℕ)
  /-- `Schedule` of the scheduler that `GetScheduler` has returned. -/
  | schedule (task : ω)
  | httpCallout (result : HttpCalloutInitResult) (calloutID : UInt64) (cb : ω)
  | startHttpStream (result : HttpCalloutInitResult) (streamID : UInt64) (cb : ω)
  | setDownstreamWatermarkCallbacks (cbs : Option ω)
  | clearDownstreamWatermarkCallbacks
  /-- `SetData`, whose wrapper is at `pointer`. -/
  | setData (key : GoString) (value : Option ω) (pointer : ℕ)
  | getData (key : GoString)

/-- The getters. -/
def view (h : DymHttpFilterHandle ω) : View → Effect ω
  | .requestHeaders => .headerMap h.requestHeaderMap
  | .requestTrailers => .headerMap h.requestTrailerMap
  | .responseHeaders => .headerMap h.responseHeaderMap
  | .responseTrailers => .headerMap h.responseTrailerMap
  | .receivedRequestBody => .bodyBuffer h.receivedRequestBody
  | .bufferedRequestBody => .bodyBuffer h.bufferedRequestBody
  | .receivedResponseBody => .bodyBuffer h.receivedResponseBody
  | .bufferedResponseBody => .bodyBuffer h.bufferedResponseBody

/-- `GetScheduler`. -/
def getScheduler (h : DymHttpFilterHandle ω) (schedulerPtr : ℕ) :
    List (Effect ω) × DymHttpFilterHandle ω :=
  match h.scheduler with
  | some _ => ([], h)
  | none =>
    ([.host h.hostPluginPtr (ascii "scheduler_new")],
      { h with scheduler := some { schedulerPtr := schedulerPtr } })

/-- `Schedule`; its two halves are apart in `Scheduler`. -/
def schedule (h : DymHttpFilterHandle ω) (task : ω) : List (Effect ω) × DymHttpFilterHandle ω :=
  match h.scheduler with
  | none => ([], h)
  | some s =>
    let r := s.register task
    ([.commit s.schedulerPtr r.1], { h with scheduler := some r.2 })

/-- A call of a method. -/
def call (h : DymHttpFilterHandle ω) : Method ω → List (Effect ω) × DymHttpFilterHandle ω
  | .view v => ([h.view v], h)
  | .forward name => ([.host h.hostPluginPtr name], h)
  | .sendLocalResponse =>
    ([.host h.hostPluginPtr (ascii "send_response")], { h with localResponseSent := true })
  | .getScheduler schedulerPtr => h.getScheduler schedulerPtr
  | .schedule task => h.schedule task
  | .httpCallout result calloutID cb =>
    let r := h.httpCallout result calloutID cb
    ([.host h.hostPluginPtr (ascii "http_callout"), .started r.1], r.2)
  | .startHttpStream result streamID cb =>
    let r := h.startHttpStream result streamID cb
    ([.host h.hostPluginPtr (ascii "start_http_stream"), .started r.1], r.2)
  | .setDownstreamWatermarkCallbacks cbs => ([], { h with downstreamWatermarkCallbacks := cbs })
  | .clearDownstreamWatermarkCallbacks => ([], { h with downstreamWatermarkCallbacks := none })
  | .setData _ _ pointer =>
    ([.host h.hostPluginPtr (ascii "set_dynamic_metadata_string")],
      { h with recordedSharedData := h.recordedSharedData ++ [pointer] })
  | .getData _ => ([.host h.hostPluginPtr (ascii "get_metadata_string")], h)

/-! ### What the host does with the handle -/

/-- A call of a hook.  The two halves of `on_http_filter_destroy`, before and after the plugin's
`OnDestroy`, are `destroy` and `onDestroyReturned`, which is no call of its own. -/
inductive Hook
  | requestHeaders (endOfStream : Bool)
  | requestBody (endOfStream : Bool)
  | requestTrailers
  | responseHeaders (endOfStream : Bool)
  | responseBody (endOfStream : Bool)
  | responseTrailers
  | localReply (responseCode : UInt32) (details : UnsafeEnvoyBuffer) (resetImminent : Bool)
  | streamComplete
  | scheduled (taskID : UInt64)
  | hostEvent (id : UInt64) (ev : HostEvent)
  /-- `on_http_filter_downstream_above_write_buffer_high_watermark`, and `_below_..._low_`. -/
  | watermark (above : Bool)
  | destroy

/-- A hook that calls the plugin, if there is one and `silenced` does not hold. -/
def callPlugin (h : DymHttpFilterHandle ω) (silenced : Bool) (c : PluginCall) : List (Effect ω) :=
  match h.plugin with
  | none => []
  | some plugin => if silenced then [] else [.plugin plugin c]

/-- `on_http_filter_scheduled`. -/
def onScheduled (h : DymHttpFilterHandle ω) (taskID : UInt64) :
    List (Effect ω) × DymHttpFilterHandle ω :=
  match h.scheduler with
  | none => ([], h)
  | some s =>
    if h.streamCompleted then ([], h)
    else
      let r := s.onScheduled taskID
      ((r.1.map Effect.task).toList, { h with scheduler := some r.2 })

/-- The two watermark hooks. -/
def onWatermark (h : DymHttpFilterHandle ω) (above : Bool) : List (Effect ω) :=
  if h.streamCompleted then []
  else (h.downstreamWatermarkCallbacks.map fun cbs => Effect.watermark cbs above).toList

/-- The pointers that `on_http_filter_stream_complete` takes out of the shared data manager. -/
def clearData (h : DymHttpFilterHandle ω) : List ℕ :=
  match h.plugin with
  | none => []
  | some _ => h.recordedSharedData

/-- A call of a hook. -/
def hook (h : DymHttpFilterHandle ω) : Hook → List (Effect ω) × DymHttpFilterHandle ω
  | .requestHeaders endOfStream =>
    (h.callPlugin false (.onRequestHeaders h.requestHeaderMap endOfStream), h)
  | .requestBody endOfStream =>
    (h.callPlugin false (.onRequestBody h.receivedRequestBody endOfStream), h)
  | .requestTrailers => (h.callPlugin false (.onRequestTrailers h.requestTrailerMap), h)
  | .responseHeaders endOfStream =>
    (h.callPlugin h.localResponseSent (.onResponseHeaders h.responseHeaderMap endOfStream), h)
  | .responseBody endOfStream =>
    (h.callPlugin h.localResponseSent (.onResponseBody h.receivedResponseBody endOfStream), h)
  | .responseTrailers =>
    (h.callPlugin h.localResponseSent (.onResponseTrailers h.responseTrailerMap), h)
  | .localReply responseCode details resetImminent =>
    (h.callPlugin false (.onLocalReply responseCode details resetImminent), h)
  | .streamComplete =>
    ((h.plugin.map fun plugin =>
      [.cleared h.clearData, .plugin plugin .onStreamComplete]).getD [], h.onStreamComplete)
  | .scheduled taskID => h.onScheduled taskID
  | .hostEvent id ev =>
    let r := h.onHostEvent id ev
    ((r.1.map fun cb => Effect.callback cb id ev).toList, r.2)
  | .watermark above => (h.onWatermark above, h)
  | .destroy =>
    if h.streamDestoried then ([], h)
    else (h.callPlugin false .onDestroy, { h with streamDestoried := true })

/-- What `on_http_filter_destroy` does to the handle after the plugin's `OnDestroy`. -/
def onDestroyReturned (h : DymHttpFilterHandle ω) : DymHttpFilterHandle ω :=
  { h with plugin := none, scheduler := none }

/-! ### What stays as it is -/

/-- The address a method adds to the handle's list. -/
def Method.recorded : Method ω → List ℕ
  | .setData _ _ pointer => [pointer]
  | _ => []

lemma call_frame (h : DymHttpFilterHandle ω) (m : Method ω) :
    (h.call m).2.hostPluginPtr = h.hostPluginPtr ∧
      (h.call m).2.streamDestoried = h.streamDestoried ∧
      (h.call m).2.recordedSharedData = h.recordedSharedData ++ m.recorded := by
  cases m with
  | getScheduler ptr => cases hs : h.scheduler <;> simp [call, getScheduler, Method.recorded, hs]
  | schedule task => cases hs : h.scheduler <;> simp [call, schedule, Method.recorded, hs]
  | setData key value pointer => exact ⟨rfl, rfl, rfl⟩
  | _ => exact ⟨rfl, rfl, (List.append_nil _).symm⟩

/-- A hook leaves the host pointer and the list alone, and only one of them sets the destroyed flag. -/
lemma hook_frame (h : DymHttpFilterHandle ω) (k : Hook) :
    (h.hook k).2.hostPluginPtr = h.hostPluginPtr ∧
      (k ≠ .destroy → (h.hook k).2.streamDestoried = h.streamDestoried) ∧
      (h.hook k).2.recordedSharedData = h.recordedSharedData := by
  cases k with
  | destroy => cases hd : h.streamDestoried <;> simp [hook, hd]
  | streamComplete => cases hp : h.plugin <;> simp [hook, onStreamComplete, hp]
  | scheduled taskID =>
      cases hs : h.scheduler <;> cases hc : h.streamCompleted <;> simp [hook, onScheduled, hs, hc]
  | hostEvent id ev =>
      cases hc : h.streamCompleted <;> cases ev <;>
        simp [hook, onHostEvent, HostEvent.kind, onHttpCalloutDone, onHttpStream, hc]
  | _ => exact ⟨rfl, fun _ => rfl, rfl⟩

end DymHttpFilterHandle

/-! ## `dymConfigHandle` -/

/-- `dymConfigHandle`. -/
structure DymConfigHandle (ω : Type) where
  hostConfigPtr : ℕ := 0
  calloutCallbacks : CallbackTable ω := fun _ => none
  streamCallbacks : CallbackTable ω := fun _ => none
  scheduler : Option (DymScheduler ω) := none

namespace DymConfigHandle

/-- `HttpCallout`, after the host's call has returned. -/
def httpCallout (h : DymConfigHandle ω) (result : HttpCalloutInitResult) (calloutID : UInt64)
    (cb : ω) : (HttpCalloutInitResult × UInt64) × DymConfigHandle ω :=
  (initReturn result calloutID,
    { h with calloutCallbacks := h.calloutCallbacks.register result calloutID cb })

/-- `StartHttpStream`, after the host's call has returned. -/
def startHttpStream (h : DymConfigHandle ω) (result : HttpCalloutInitResult) (streamID : UInt64)
    (cb : ω) : (HttpCalloutInitResult × UInt64) × DymConfigHandle ω :=
  (initReturn result streamID,
    { h with streamCallbacks := h.streamCallbacks.register result streamID cb })

/-- `on_http_filter_config_http_callout_done`; unlike the filter's hook it looks at no flag. -/
def onHttpCalloutDone (h : DymConfigHandle ω) (calloutID : UInt64) :
    Option ω × DymConfigHandle ω :=
  let r := h.calloutCallbacks.deliver calloutID true
  (r.1, { h with calloutCallbacks := r.2 })

/-- `on_http_filter_config_http_stream_headers`, `_data`, `_trailers`, `_complete`, `_reset`. -/
def onHttpStream (h : DymConfigHandle ω) (streamID : UInt64) (isFinal : Bool) :
    Option ω × DymConfigHandle ω :=
  let r := h.streamCallbacks.deliver streamID isFinal
  (r.1, { h with streamCallbacks := r.2 })

/-- The hook for an event of a callout or stream. -/
def onHostEvent (h : DymConfigHandle ω) (id : UInt64) (ev : HostEvent) :
    Option ω × DymConfigHandle ω :=
  match ev.kind with
  | .callout => h.onHttpCalloutDone id
  | .stream => h.onHttpStream id ev.isFinal

/-- What `on_http_filter_config_destroy` does to the handle. -/
def onDestroy (h : DymConfigHandle ω) : DymConfigHandle ω := { h with scheduler := none }

end DymConfigHandle

/-! ## `dymNetworkFilterHandle` -/

/-- `dymNetworkFilterHandle`; its two data buffers have no part in what follows. -/
structure DymNetworkFilterHandle (ω : Type) where
  hostPluginPtr : ℕ := 0
  plugin : Option ω := none
  calloutCallbacks : CallbackTable ω := fun _ => none
  scheduler : Option (DymScheduler ω) := none
  filterDestroyed : Bool := false

namespace DymNetworkFilterHandle

/-- `HttpCallout`, after the host's call has returned. -/
def httpCallout (h : DymNetworkFilterHandle ω) (result : HttpCalloutInitResult)
    (calloutID : UInt64) (cb : ω) :
    (HttpCalloutInitResult × UInt64) × DymNetworkFilterHandle ω :=
  (initReturn result calloutID,
    { h with calloutCallbacks := h.calloutCallbacks.register result calloutID cb })

/-- `on_network_filter_http_callout_done`. -/
def onHttpCalloutDone (h : DymNetworkFilterHandle ω) (calloutID : UInt64) :
    Option ω × DymNetworkFilterHandle ω :=
  if h.filterDestroyed then (none, h)
  else
    let r := h.calloutCallbacks.deliver calloutID true
    (r.1, { h with calloutCallbacks := r.2 })

/-- What `on_network_filter_destroy` does to the handle before it calls the plugin. -/
def onDestroy (h : DymNetworkFilterHandle ω) : DymNetworkFilterHandle ω :=
  if h.filterDestroyed then h else { h with filterDestroyed := true, scheduler := none }

end DymNetworkFilterHandle

end Luwes.AbiImpl
