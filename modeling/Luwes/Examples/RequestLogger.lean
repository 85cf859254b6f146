import Luwes.Examples.ResponseFlags
import Luwes.Lib.Handoff
import Luwes.Lib.PooledStreams
import Luwes.Shared.AccessLogger
import Luwes.Shared.Api

/-!
# The request logger (`examples/request-logger`)

One half of the logger is a filter, whose objects come from a pool: the callbacks of a stream collect a
record, and when the stream is complete a copy of it is left in `pendingRecords` under the request id.  The
other half is an access logger that takes the record out when the host reports the end of the stream, adds
what is known only then, and writes a line.  `OnDestroy` removes what has not been taken.

The two halves know of each other by the request id alone.  As long as no two streams have the same one at
the same time (`Apart`), every line is about one stream, the one that the event is about, and has what its
own callbacks have collected (`lines_correlate`); a stream that has left a record gets its line with the
first event (`onLog_writes`).
-/

namespace Luwes.RequestLogger

open LabelledRun PooledStreams

/-! ## The record (`request_logger.go`) -/

/-- `Config`. -/
structure Config where
  recordRequestHeaders : Bool := true
  recordResponseHeaders : Bool := true
  recordRequestBody : Bool := false
  recordResponseBody : Bool := false
  maxBodyBytes : ℤ := 4096

/-- `Factory`: the limit for a body is positive. -/
structure Factory where
  cfg : Config
  maxBodyBytes_pos : 0 < cfg.maxBodyBytes

lemma defaultMaxBody_pos : (0 : ℤ) < 4096 := by decide

/-- `NewFactory`, with `json.Unmarshal` into a configuration. -/
def newFactory (unmarshal : Bytes → Config → Option Config) (raw : Bytes) : Option Factory :=
  (if 0 < raw.length then unmarshal raw {} else some {}).map fun cfg =>
    if h : cfg.maxBodyBytes ≤ 0 then ⟨{ cfg with maxBodyBytes := 4096 }, defaultMaxBody_pos⟩
    else ⟨cfg, Int.not_le.mp h⟩

/-- `record`.  A float is given by the integer that it is made of: the duration by its nanoseconds. -/
structure Record where
  requestID : GoString := []
  method : GoString := []
  path : GoString := []
  host : GoString := []
  traceID : GoString := []
  spanID : GoString := []
  requestHeaders : List (GoString × GoString) := []
  requestBody : Bytes := []
  upstreamStatus : GoString := []
  upstreamAddress : GoString := []
  responseHeaders : List (GoString × GoString) := []
  errorDetails : GoString := []
  responseBody : Bytes := []
  durationNs : ℤ := 0
  requestSizeBytes : UInt64 := 0
  responseSizeBytes : UInt64 := 0
  responseCode : ℤ := 0
  responseFlags : GoString := []
  responseCodeDetails : GoString := []
  upstreamFailure : GoString := []
  deriving DecidableEq, Repr

/-- `copyHeaders`. -/
def copyHeaders (raw : HeaderSlice) : List (GoString × GoString) :=
  raw.map fun h => (h.1.toString, h.2.toString)

/-- `truncate`, where the limit is positive. -/
def truncate (src : Bytes) (maxBytes : ℤ) : Bytes :=
  if src.length ≤ maxBytes then src else src.take maxBytes.toNat

/-- The first chunk of a body that is there at its end, truncated. -/
def Factory.body (F : Factory) (chunks : List UnsafeEnvoyBuffer) (old : Bytes) : Bytes :=
  match chunks with
  | [] => old
  | c :: _ => truncate (c.toUnsafeBytes.getD []) F.cfg.maxBodyBytes

/-- `GetOneInto` and `ToString`: a header that is there. -/
def header (headers : HeaderMap) (key : String) (old : GoString) : GoString :=
  ((headers.getOneInto (ascii key)).map (·.toString)).getD old

/-- The active span of a stream. -/
structure ActiveSpan where
  traceID : Option UnsafeEnvoyBuffer
  spanID : Option UnsafeEnvoyBuffer

/-! ## The filter -/

/-- A callback of the filter, with what it asks the handle. -/
inductive Callback
  | requestHeaders (headers : HeaderMap) (all : HeaderSlice) (span : Option ActiveSpan)
  | requestBody (body : List UnsafeEnvoyBuffer) (endStream : Bool)
  | responseHeaders (headers : HeaderMap) (all : HeaderSlice) (upstreamAddress : Option UnsafeEnvoyBuffer)
  | responseBody (body : List UnsafeEnvoyBuffer) (endStream : Bool)
  | localReply (details : UnsafeEnvoyBuffer)
  | streamComplete (hasSpan : Bool)
  | destroy

/-- What a callback writes into the record of its stream. -/
def Factory.collect (F : Factory) (r : Record) : Callback → Record
  | .requestHeaders headers all span =>
    { r with
      requestID := header headers "x-request-id" r.requestID
      method := header headers ":method" r.method
      path := header headers ":path" r.path
      host := header headers ":authority" r.host
      traceID := ((span.bind (·.traceID)).map (·.toString)).getD r.traceID
      spanID := ((span.bind (·.spanID)).map (·.toString)).getD r.spanID
      requestHeaders := if F.cfg.recordRequestHeaders then copyHeaders all else r.requestHeaders }
  | .requestBody body endStream =>
    if endStream then { r with requestBody := F.body body r.requestBody } else r
  | .responseHeaders headers all upstreamAddress =>
    { r with
      upstreamStatus := header headers ":status" r.upstreamStatus
      upstreamAddress := (upstreamAddress.map (·.toString)).getD r.upstreamAddress
      responseHeaders := if F.cfg.recordResponseHeaders then copyHeaders all else r.responseHeaders }
  | .responseBody body endStream =>
    if F.cfg.recordResponseBody && endStream then { r with responseBody := F.body body r.responseBody }
    else r
  | .localReply details => { r with errorDetails := details.toString }
  | .streamComplete _ | .destroy => r

/-- What a callback returns. -/
inductive Status
  | headers (s : HeadersStatus)
  | body (s : BodyStatus)
  | localReply (s : LocalReplyStatus)
  | none
  deriving DecidableEq, Repr

/-- A call on the handle of a stream, or on its span. -/
inductive Call
  | setTag (key value : GoString)
  | setMetadata (key value : GoString)
  deriving DecidableEq, Repr

/-- What is done with `pendingRecords`. -/
inductive PendingOp
  | store (key : GoString) (r : Record)
  | delete (key : GoString)
  deriving DecidableEq, Repr

/-- What a callback does: what it calls on which handle, what it does with `pendingRecords`, and what it
returns. -/
structure Answer where
  status : Status := .none
  calls : List (ℕ × Call) := []
  pending : Option PendingOp := none
  deriving DecidableEq, Repr

/-- The tags that `OnStreamComplete` sets. -/
def tags (r : Record) : List Call :=
  [.setTag (ascii "request.id") r.requestID, .setTag (ascii "request.method") r.method,
    .setTag (ascii "request.path") r.path, .setTag (ascii "request.host") r.host,
    .setTag (ascii "response.status") r.upstreamStatus, .setTag (ascii "upstream.address") r.upstreamAddress] ++
  if r.errorDetails ≠ [] then
    [.setTag (ascii "error") (ascii "true"), .setTag (ascii "error.details") r.errorDetails]
  else []

/-- The metadata in the namespace `req_log` that `OnStreamComplete` sets. -/
def metadata (r : Record) : List Call :=
  if r.requestID = [] then []
  else
    [.setMetadata (ascii "request_id") r.requestID, .setMetadata (ascii "method") r.method,
      .setMetadata (ascii "path") r.path, .setMetadata (ascii "host") r.host,
      .setMetadata (ascii "trace_id") r.traceID, .setMetadata (ascii "span_id") r.spanID,
      .setMetadata (ascii "upstream_status") r.upstreamStatus,
      .setMetadata (ascii "upstream_address") r.upstreamAddress] ++
    (if r.errorDetails ≠ [] then [.setMetadata (ascii "error_details") r.errorDetails] else []) ++
    (if r.requestBody ≠ [] then [.setMetadata (ascii "request_body") r.requestBody] else []) ++
    (if r.responseBody ≠ [] then [.setMetadata (ascii "response_body") r.responseBody] else [])

/-- `Filter`; the handle is named by its stream. -/
structure Filter where
  handle : Option ℕ := none
  record : Record := {}
  deriving DecidableEq, Repr

/-- The callbacks of `Filter`.  Those that ask the handle panic if it is nil. -/
def Filter.step (F : Factory) (f : Filter) (op : Callback) : Option (Filter × Answer) :=
  let f' := { f with record := F.collect f.record op }
  match op with
  | .requestHeaders .. =>
    let status := if F.cfg.recordRequestBody then .statusStopAllAndBuffer else .statusContinue
    f.handle.map fun _ => (f', { status := .headers status })
  | .requestBody _ endStream =>
    let status := if endStream then .statusContinue else .statusStopAndBuffer
    some (f', { status := .body status })
  | .responseHeaders .. => f.handle.map fun _ => (f', { status := .headers .statusContinue })
  | .responseBody _ endStream =>
    let status := if F.cfg.recordResponseBody && !endStream then .statusStopAndBuffer else .statusContinue
    some (f', { status := .body status })
  | .localReply _ => some (f', { status := .localReply .statusContinue })
  | .streamComplete hasSpan => f.handle.map fun h =>
    ({ f with handle := none },
      { calls := ((if hasSpan then tags f.record else []) ++ metadata f.record).map (h, ·)
        pending := if f.record.requestID ≠ [] then some (.store f.record.requestID f.record) else none })
  | .destroy =>
    some ({ f with record := {} },
      { pending := if f.record.requestID ≠ [] then some (.delete f.record.requestID) else none })

/-- `pool.New`, `Create`, and `OnDestroy`, after which the filter is in the pool. -/
def factory (F : Factory) : Code ℕ Filter Callback Answer where
  new := {}
  create i _ := { handle := some i, record := {} }
  step := Filter.step F
  last
    | .destroy => true
    | _ => false

/-! ## The access logger (`accesslogger.go`) -/

/-- What `OnLog` adds to the record it has taken. -/
def enrich (ev : LogEvent) (r : Record) : Record :=
  { r with
    durationNs := if 0 ≤ ev.requestCompleteDurationNs then ev.requestCompleteDurationNs else r.durationNs
    requestSizeBytes := ev.bytesReceived
    responseSizeBytes := ev.bytesSent
    responseCode := match ev.responseCode with
      | some v => if 0 < v then v else r.responseCode
      | none => r.responseCode
    responseCodeDetails := orElse ev.responseCodeDetails r.responseCodeDetails
    responseFlags := if responseFlags ev.responseFlags ≠ [] then responseFlags ev.responseFlags
      else r.responseFlags
    upstreamFailure := orElse ev.upstreamTransportFailureReason r.upstreamFailure }

/-- An argument of the log line. -/
inductive LogArg
  | string (s : GoString)
  | number (n : ℤ)
  deriving DecidableEq, Repr

/-- `emitRecord`: the arguments of the line, with the duration in nanoseconds. -/
def emitRecord (r : Record) : List LogArg :=
  [.string r.requestID, .string r.method, .string r.path, .string r.host, .number r.responseCode,
    .string r.upstreamAddress, .string r.responseFlags, .number r.durationNs,
    .number r.requestSizeBytes.toNat, .number r.responseSizeBytes.toNat,
    .string r.errorDetails, .string r.responseCodeDetails, .string r.upstreamFailure,
    .string r.traceID, .string r.spanID]

/-- A line that has been written, with the event that it is written for and the stream this is about. -/
structure Line where
  stream : ℕ
  event : LogEvent
  args : List LogArg
  deriving DecidableEq, Repr

/-! ## The two halves -/

/-- All streams of a factory, its `pendingRecords`, and the lines written so far. -/
structure Logger where
  filters : System ℕ Filter Callback Answer := {}
  pending : GoString → Option Record := fun _ => none
  lines : List Line := []

/-- A step: the factory or a filter, or an event about a stream. -/
inductive Step
  | filter (l : Label ℕ Callback)
  | onLog (i : ℕ) (ev : LogEvent)

/-- An operation on `pendingRecords`. -/
def PendingOp.apply (pending : GoString → Option Record) : PendingOp → GoString → Option Record
  | .store key r => Function.update pending key (some r)
  | .delete key => Function.update pending key none

namespace Logger

/-- `OnLog`. -/
def onLog (s : Logger) (i : ℕ) (ev : LogEvent) : Logger :=
  match ev.key with
  | none => s
  | some key =>
    match s.pending key with
    | none => s
    | some r =>
      { s with
        pending := Function.update s.pending key none
        lines := s.lines ++ [⟨i, ev, emitRecord (enrich ev r)⟩] }

/-- One step. -/
def step (F : Factory) (s : Logger) : Step → Option Logger
  | .filter l => (s.filters.step (factory F) l).map fun filters =>
    { s with
      filters := filters
      pending := ((filters.trace.drop s.filters.trace.length).filterMap (·.out.pending)).foldl
        PendingOp.apply s.pending }
  | .onLog i ev => some (s.onLog i ev)

/-- The callbacks of a stream so far. -/
def callbacks (s : Logger) (i : ℕ) : List Callback := (s.filters.entries i).map (·.op)

/-- The request id in the filter of a stream; empty if there is none. -/
def requestID (s : Logger) (i : ℕ) : GoString :=
  match (s.filters.own i).bind s.filters.pool.read with
  | some f => f.record.requestID
  | none => []

/-- A line has been written for the stream. -/
def Logged (s : Logger) (i : ℕ) : Prop := i ∈ s.lines.map (·.stream)

end Logger

/-- The request id that a stream has after a callback. -/
def Callback.requestID (old : GoString) : Callback → GoString
  | .requestHeaders headers _ _ => header headers "x-request-id" old
  | .destroy => []
  | _ => old

/-- The request id that a stream gets, and the one of an event, is not that of another stream. -/
def Apart (s : Logger) : Step → Prop
  | .filter (.callback i op) => ∀ j, s.requestID j = op.requestID (s.requestID i) → s.requestID j ≠ [] → j = i
  | .filter (.create ..) => True
  | .onLog i ev => ∀ j, ev.key = some (s.requestID j) → j = i

/-- What a stream leaves: what it has collected when it is complete. -/
def Factory.deposited (F : Factory) (r : Record) : List Callback → Option Record
  | [] => none
  | .streamComplete _ :: _ => if r.requestID ≠ [] then some r else none
  | op :: ops => F.deposited (F.collect r op) ops

/-! ## A filter of one's own -/

/-- The stream is complete. -/
def Callback.completes : Callback → Bool
  | .streamComplete _ => true
  | _ => false

/-- The callback asks the handle. -/
def Callback.asks : Callback → Bool
  | .requestHeaders .. | .responseHeaders .. | .streamComplete _ => true
  | _ => false

/-- What a callback does with `pendingRecords`. -/
def Callback.pendingOp (r : Record) : Callback → Option PendingOp
  | .streamComplete _ => if r.requestID ≠ [] then some (.store r.requestID r) else none
  | .destroy => if r.requestID ≠ [] then some (.delete r.requestID) else none
  | _ => none

/-- A stream with a filter of its own, which nobody resets at the end. -/
def alone (F : Factory) : Machine ℕ Filter Callback Answer where
  init i := { handle := some i }
  step b op := (b.step F op).map fun (b', out) => (if (factory F).last op then b else b', out)

section

variable {F : Factory} {i : ℕ} {b b' : Filter} {op : Callback} {ops : List Callback} {out : Answer}
  {r : Record}

/-- A filter from the pool does what that one does. -/
lemma filter_refines (F : Factory) :
    Refines (factory F) (alone F) (fun _ => True) (fun _ f b => f = b) where
  new := trivial
  create _ _ _ := rfl
  step i f b op f' out h hstep := by
    subst h
    refine ⟨_, Option.map_eq_some_iff.mpr ⟨(f', out), hstep, rfl⟩, ?_⟩
    cases (factory F).last op with
    | true => trivial
    | false => rfl

lemma step_eq_some (h : (alone F).step b op = some (b', out)) :
    (op.asks = true → b.handle ≠ none) ∧
      b' = { handle := if op.completes then none else b.handle, record := F.collect b.record op } ∧
      out.pending = op.pendingOp b.record ∧ ∀ c ∈ out.calls, b.handle = some c.1 := by
  obtain ⟨⟨f, out'⟩, hstep, heq⟩ := Option.map_eq_some_iff.mp h
  obtain ⟨rfl, rfl⟩ := Prod.mk.inj heq
  cases op with
  | requestHeaders | responseHeaders =>
      obtain ⟨k, hk, heq⟩ := Option.map_eq_some_iff.mp hstep
      obtain ⟨rfl, rfl⟩ := Prod.mk.inj heq
      exact ⟨fun _ => by simp [hk], rfl, rfl, by simp⟩
  | requestBody | responseBody | localReply | destroy =>
      obtain ⟨rfl, rfl⟩ := Prod.mk.inj (Option.some.inj hstep)
      exact ⟨by simp [Callback.asks], rfl, rfl, by simp⟩
  | streamComplete =>
      obtain ⟨k, hk, heq⟩ := Option.map_eq_some_iff.mp hstep
      obtain ⟨rfl, rfl⟩ := Prod.mk.inj heq
      refine ⟨fun _ => by simp [hk], rfl, rfl, fun c hc => ?_⟩
      obtain ⟨_, -, rfl⟩ := List.mem_map.mp hc
      exact hk

lemma deposited_cons (hop : op.completes = false) :
    F.deposited r (op :: ops) = F.deposited (F.collect r op) ops := by
  cases op with
  | streamComplete => cases hop
  | _ => rfl

/-- What a stream leaves is decided by the callbacks up to the first that completes it. -/
lemma deposited_append (r : Record) (ops rest : List Callback) : F.deposited r (ops ++ rest) =
    if ops.any Callback.completes then F.deposited r ops
    else F.deposited (ops.foldl F.collect r) rest := by
  induction ops generalizing r with
  | nil => rfl
  | cons op ops ih =>
      cases hop : op.completes with
      | true =>
          cases op with
          | streamComplete => rfl
          | _ => cases hop
      | false =>
          rw [List.cons_append, deposited_cons hop, deposited_cons hop, ih, List.any_cons, hop,
            Bool.false_or, List.foldl_cons]

lemma deposited_eq_none (h : ops.any Callback.completes = false) : F.deposited r ops = none := by
  have := deposited_append (F := F) r ops []
  rwa [List.append_nil, h, if_neg (by simp)] at this

lemma deposited_append_of_eq_some (h : F.deposited {} ops = some r) (rest : List Callback) :
    F.deposited {} (ops ++ rest) = some r := by
  rw [deposited_append, if_pos, h]
  by_contra hnot
  rw [deposited_eq_none (Bool.eq_false_iff.mpr hnot)] at h
  cases h

lemma deposited_concat (hop : op.completes = false) :
    F.deposited {} (ops ++ [op]) = F.deposited {} ops := by
  rw [deposited_append]
  split_ifs with h
  · rfl
  · rw [deposited_cons hop, deposited_eq_none (Bool.eq_false_iff.mpr h)]
    rfl

lemma collect_requestID (h : (factory F).last op = false) :
    (F.collect r op).requestID = op.requestID r.requestID := by
  cases op with
  | destroy => cases h
  | requestBody | responseBody =>
      simp only [Factory.collect]
      split_ifs <;> rfl
  | _ => rfl

/-- Only the request headers bring another request id. -/
lemma collect_requestID_of_not_asks (h : op.asks = false) :
    (F.collect r op).requestID = r.requestID := by
  cases op with
  | requestHeaders => cases h
  | destroy => rfl
  | _ => exact collect_requestID (F := F) rfl

/-- Where a filter of one's own is after its callbacks. -/
structure Tracks (F : Factory) (i : ℕ) (ops : List Callback) (b : Filter) : Prop where
  handle : b.handle = if ops.any Callback.completes then none else some i
  record : ops.any Callback.completes = false → b.record = ops.foldl F.collect {}
  left : ∀ r, F.deposited {} ops = some r → r.requestID = b.record.requestID ∧ r.requestID ≠ []

lemma Tracks.step (h : Tracks F i ops b) (hstep : (alone F).step b op = some (b', out)) :
    Tracks F i (ops ++ [op]) b' := by
  obtain ⟨hasks, rfl, -⟩ := step_eq_some hstep
  cases hdone : ops.any Callback.completes with
  | true =>
      -- A complete stream has no handle, so its request id does not change any more.
      have hnone : b.handle = none := by rw [h.handle, hdone, if_pos rfl]
      have hop : op.asks = false := by
        by_contra hop
        exact hasks (Bool.not_eq_false _ ▸ hop) hnone
      refine ⟨?_, ?_, fun r hr => ?_⟩
      · rw [List.any_append, hdone, Bool.true_or, if_pos rfl, hnone, ite_self]
      · rw [List.any_append, hdone]
        simp
      · rw [deposited_append, hdone, if_pos rfl] at hr
        rw [collect_requestID_of_not_asks hop]
        exact h.left r hr
  | false =>
      have hopen : b.handle = some i := by rw [h.handle, hdone, if_neg (by simp)]
      have hany : (ops ++ [op]).any Callback.completes = op.completes := by
        rw [List.any_append, hdone, Bool.false_or, List.any_cons, List.any_nil, Bool.or_false]
      refine ⟨?_, fun _ => ?_, fun r hr => ?_⟩
      · rw [hany, hopen]
      · rw [List.foldl_append, ← h.record hdone]
        rfl
      · rw [deposited_append, hdone, if_neg (by simp), ← h.record hdone] at hr
        cases op with
        | streamComplete =>
            rw [Factory.deposited] at hr
            split_ifs at hr with hid
            obtain rfl := Option.some.inj hr
            exact ⟨rfl, hid⟩
        | _ => cases hr

/-- **The filter of a stream** after the callbacks in a record. -/
lemma tracks_of_answers {es : List (Entry ℕ Callback Answer)} (h : (alone F).Answers i es b) :
    Tracks F i (es.map (·.op)) b := by
  refine h.invariant (P := fun es b => Tracks F i (es.map (·.op)) b) ?_ fun es b e b' ih hstep => ?_
  · exact ⟨rfl, fun _ => rfl, by simp [Factory.deposited]⟩
  · rw [List.map_append]
    exact ih.step hstep

lemma calls_of_answers {es : List (Entry ℕ Callback Answer)} (h : (alone F).Answers i es b) :
    ∀ e ∈ es, ∀ c ∈ e.out.calls, c.1 = i := by
  refine (h.invariant (P := fun es b => (b.handle = some i ∨ b.handle = none) ∧
    ∀ e ∈ es, ∀ c ∈ e.out.calls, c.1 = i) ⟨.inl rfl, by simp⟩ fun es b e b' ih hstep => ?_).2
  obtain ⟨-, rfl, -, hcalls⟩ := step_eq_some hstep
  refine ⟨?_, fun e' he' c hc => ?_⟩
  · dsimp only
    split_ifs
    · exact .inr rfl
    · exact ih.1
  · rcases List.mem_append.mp he' with he' | he'
    · exact ih.2 e' he' c hc
    · obtain rfl := List.mem_singleton.mp he'
      rcases ih.1 with hi | hnone
      · exact (Option.some.inj (hi.symm.trans (hcalls c hc))).symm
      · rw [hcalls c hc] at hnone
        cases hnone

end

/-! ## Both halves -/

namespace Logger

/-- What a stream that still has its filter has left, and under which key. -/
def left (F : Factory) (s : Logger) (i : ℕ) : Option (GoString × Record) :=
  if s.filters.own i = none then none
  else (F.deposited {} (s.callbacks i)).map fun r => (r.requestID, r)

variable {F : Factory} {s s' : Logger} {i j : ℕ} {k : GoString} {r : Record}

lemma left_eq_some : s.left F i = some (k, r) ↔
    s.filters.own i ≠ none ∧ F.deposited {} (s.callbacks i) = some r ∧ r.requestID = k := by
  rw [left]
  split_ifs with h
  · simp [h]
  · simp only [Option.map_eq_some_iff, Prod.mk.injEq, ne_eq, h, not_false_eq_true, true_and]
    exact ⟨fun ⟨_, hr, hk, heq⟩ => heq ▸ ⟨hr, hk⟩, fun ⟨hr, hk⟩ => ⟨r, hr, hk, rfl⟩⟩

/-- The filters answer as filters of one's own. -/
abbrev Isolated (F : Factory) (s : Logger) : Prop :=
  s.filters.Isolated (alone F) (fun _ => True) (fun _ f b => f = b)

lemma Isolated.filter (h : s.Isolated F) (hown : s.filters.own i ≠ none) :
    ∃ b, (alone F).Answers i (s.filters.entries i) b ∧ Tracks F i (s.callbacks i) b ∧
      s.requestID i = b.record.requestID := by
  obtain ⟨a, ha⟩ := Option.ne_none_iff_exists'.mp hown
  obtain ⟨f, b, hf, rfl, hanswers⟩ := h.live i a ha
  exact ⟨f, hanswers, tracks_of_answers hanswers, by rw [requestID, ha, Option.bind_some, hf]⟩

lemma requestID_of_own_eq_none (h : s.filters.own i = none) : s.requestID i = [] := by
  rw [requestID, h]
  rfl

/-- The request id is that of the filter which has made the callbacks. -/
lemma Isolated.requestID_congr (h : s.Isolated F) (h' : s'.Isolated F)
    (hown : s'.filters.own i = s.filters.own i)
    (hentries : s'.filters.entries i = s.filters.entries i) : s'.requestID i = s.requestID i := by
  by_cases hnone : s.filters.own i = none
  · rw [requestID_of_own_eq_none hnone, requestID_of_own_eq_none (hown.trans hnone)]
  · obtain ⟨b, hb, -, hid⟩ := h.filter hnone
    obtain ⟨b', hb', -, hid'⟩ := h'.filter (hown ▸ hnone)
    rw [hentries] at hb'
    rw [hid, hid', hb'.unique hb]

lemma left_congr (hown : s'.filters.own i = s.filters.own i)
    (hentries : s'.filters.entries i = s.filters.entries i) : s'.left F i = s.left F i := by
  rw [left, left, callbacks, callbacks, hown, hentries]

/-- What a stream has left is under its request id. -/
lemma Isolated.left_key (h : s.Isolated F) (hleft : s.left F i = some (k, r)) :
    s.requestID i = k ∧ k ≠ [] := by
  obtain ⟨hown, hr, rfl⟩ := left_eq_some.mp hleft
  obtain ⟨b, -, htracks, hid⟩ := h.filter hown
  obtain ⟨hkey, hne⟩ := htracks.left r hr
  exact ⟨hid.trans hkey.symm, hne⟩

/-- The two halves agree. -/
structure Correlated (F : Factory) (s : Logger) : Prop where
  isolated : s.Isolated F
  sound : Handoff.Sound s.pending (s.left F) s.Logged
  written : ∀ l ∈ s.lines, ∃ r, F.deposited {} (s.callbacks l.stream) = some r ∧
    l.event.key = some r.requestID ∧ l.args = emitRecord (enrich l.event r)
  once : (s.lines.map (·.stream)).Nodup
  distinct : ∀ i j, s.requestID i = s.requestID j → s.requestID i ≠ [] → i = j

lemma correlated_new : ({} : Logger).Correlated F where
  isolated := System.isolated_new
  sound := Handoff.sound_empty
  written := by simp
  once := by simp
  distinct _ _ _ h := absurd rfl h

/-- Nobody else leaves anything under the request id of a stream. -/
lemma Correlated.ownKey (h : s.Correlated F) (hid : s.requestID i = k) (hne : k ≠ []) :
    Handoff.OwnKey (s.left F) i k := by
  intro j r hj
  have hj := (h.isolated.left_key hj).1
  exact h.distinct j i (hj.trans hid.symm) (hj ▸ hne)

/-- Where nobody leaves anything, takes anything or gets another request id, all stays as it is. -/
lemma Correlated.congr (h : s.Correlated F) (hisolated : s'.Isolated F) (hpending : s'.pending = s.pending)
    (hlines : s'.lines = s.lines) (hleft : ∀ j, s'.left F j = s.left F j)
    (hid : ∀ j, s'.requestID j = s.requestID j)
    (hkept : ∀ j r, F.deposited {} (s.callbacks j) = some r → F.deposited {} (s'.callbacks j) = some r) :
    s'.Correlated F where
  isolated := hisolated
  sound := by
    rw [hpending, funext hleft, show s'.Logged = s.Logged by funext j; rw [Logged, Logged, hlines]]
    exact h.sound
  written l hl := by
    obtain ⟨r, hr, hkey, hargs⟩ := h.written l (hlines ▸ hl)
    exact ⟨r, hkept _ r hr, hkey, hargs⟩
  once := hlines ▸ h.once
  distinct i j := by
    rw [hid, hid]
    exact h.distinct i j

lemma step_filter_eq_some {l : Label ℕ Callback} (hrun : s.step F (.filter l) = some s') :
    s.filters.step (factory F) l = some s'.filters ∧ s'.lines = s.lines ∧
      s'.pending = ((s'.filters.trace.drop s.filters.trace.length).filterMap (·.out.pending)).foldl
        PendingOp.apply s.pending := by
  obtain ⟨filters, hstep, rfl⟩ := Option.map_eq_some_iff.mp hrun
  exact ⟨hstep, rfl, rfl⟩

lemma Correlated.create (h : s.Correlated F) {choice : Option ℕ}
    (hrun : s.step F (.filter (.create i choice)) = some s') : s'.Correlated F := by
  obtain ⟨hcreate, hlines, hpending⟩ := step_filter_eq_some hrun
  have hisolated : s'.Isolated F := System.Isolated.create h.isolated (filter_refines F) hcreate
  obtain ⟨hnone, hempty, hsome, hown, htrace⟩ := System.create_changes hcreate
  have hentries (j : ℕ) : s'.filters.entries j = s.filters.entries j := congrArg (entriesOf · j) htrace
  refine h.congr hisolated ?_ hlines (fun j => ?_) (fun j => ?_) fun j r hr => ?_
  · rw [hpending, htrace, List.drop_length]
    rfl
  · by_cases hji : j = i
    · subst hji
      rw [left, left, if_pos hnone, if_neg hsome, callbacks, hentries, hempty]
      rfl
    · exact left_congr (hown j hji) (hentries j)
  · by_cases hji : j = i
    · subst hji
      obtain ⟨b, hb, -, hid⟩ := hisolated.filter hsome
      rw [hentries, hempty] at hb
      rw [requestID_of_own_eq_none hnone, hid, ← (Prod.mk.inj (Option.some.inj hb)).1]
      rfl
    · exact h.isolated.requestID_congr hisolated (hown j hji) (hentries j)
  · rwa [callbacks, hentries]

/-- What a callback of a stream does, in terms of a filter of its own. -/
structure Moves (F : Factory) (i : ℕ) (op : Callback) (s s' : Logger) : Prop where
  isolated : s'.Isolated F
  lines : s'.lines = s.lines
  live : s.filters.own i ≠ none
  own : s'.filters.own i ≠ none ↔ op ≠ .destroy
  others : ∀ j, j ≠ i → s'.filters.own j = s.filters.own j
  callbacks : s'.callbacks i = s.callbacks i ++ [op]
  kept : ∀ j, j ≠ i → s'.filters.entries j = s.filters.entries j
  requestID : s'.requestID i = op.requestID (s.requestID i)
  pending : ∃ b, Tracks F i (s.callbacks i) b ∧ s.requestID i = b.record.requestID ∧
    (op.asks = true → b.handle ≠ none) ∧
    s'.pending = (op.pendingOp b.record).toList.foldl PendingOp.apply s.pending

lemma Isolated.moves (h : s.Isolated F) {op : Callback}
    (hrun : s.step F (.filter (.callback i op)) = some s') : Moves F i op s s' := by
  obtain ⟨hcallback, hlines, hpending⟩ := step_filter_eq_some hrun
  have hisolated : s'.Isolated F := System.Isolated.callback h (filter_refines F) hcallback
  obtain ⟨b, b', out, hb, hstep, hsome, htrace, hown⟩ :=
    System.Isolated.callback_answers h (filter_refines F) hcallback
  obtain ⟨hasks, hb', hop, -⟩ := step_eq_some hstep
  have hentries : s'.filters.entries i = s.filters.entries i ++ [⟨i, op, out⟩] := by
    rw [System.entries, htrace, entriesOf_concat_self]
    rfl
  obtain ⟨b₀, hb₀, -, hid⟩ := h.filter hsome
  obtain rfl := hb₀.unique hb
  have hlast : (factory F).last op = true ↔ op = .destroy := by cases op <;> simp [factory]
  have hown' : s'.filters.own i ≠ none ↔ op ≠ .destroy := by
    rw [hown]
    split_ifs with h
    · simp [hlast.mp h]
    · exact iff_of_true hsome (mt hlast.mpr h)
  refine ⟨hisolated, hlines, hsome, hown', fun j hj => ?_, ?_, fun j hj => ?_, ?_,
    b₀, tracks_of_answers hb, hid, hasks, ?_⟩
  · rw [hown]
    split_ifs
    · exact Function.update_of_ne hj ..
    · rfl
  · rw [callbacks, hentries, List.map_append]
    rfl
  · rw [System.entries, htrace, entriesOf_concat_ne hj]
    rfl
  · by_cases hdestroy : op = .destroy
    · subst hdestroy
      exact requestID_of_own_eq_none (by simpa using hown')
    · obtain ⟨b₁, hb₁, -, hid'⟩ := hisolated.filter (hown'.mpr hdestroy)
      rw [hentries] at hb₁
      rw [hid', hid, hb₁.unique (hb.concat hstep), hb']
      exact collect_requestID (Bool.eq_false_iff.mpr (mt hlast.mp hdestroy))
  · rw [hpending, htrace, List.drop_left, ← hop]
    cases hpend : out.pending <;> simp [hpend]

namespace Moves

variable {op : Callback}

lemma left_ne (h : Moves F i op s s') (hj : j ≠ i) : s'.left F j = s.left F j :=
  left_congr (h.others j hj) (h.kept j hj)

lemma left_eq (h : Moves F i op s s') : s'.left F = Function.update (s.left F) i (s'.left F i) := by
  funext j
  by_cases hj : j = i
  · rw [hj, Function.update_self]
  · rw [h.left_ne hj, Function.update_of_ne hj]

lemma requestID_ne (h : Moves F i op s s') (hisolated : s.Isolated F) (hj : j ≠ i) :
    s'.requestID j = s.requestID j :=
  hisolated.requestID_congr h.isolated (h.others j hj) (h.kept j hj)

lemma deposited (h : Moves F i op s s') {j : ℕ} (hr : F.deposited {} (s.callbacks j) = some r) :
    F.deposited {} (s'.callbacks j) = some r := by
  by_cases hj : j = i
  · subst hj
    rw [h.callbacks]
    exact deposited_append_of_eq_some hr _
  · rwa [Logger.callbacks, h.kept j hj]

/-- No two streams get the same request id. -/
lemma distinct (h : Moves F i op s s') (hs : s.Correlated F) (hapart : Apart s (.filter (.callback i op)))
    (j k : ℕ) (heq : s'.requestID j = s'.requestID k) (hne : s'.requestID j ≠ []) : j = k := by
  by_cases hj : j = i <;> by_cases hk : k = i
  · rw [hj, hk]
  · subst hj
    rw [h.requestID, h.requestID_ne hs.isolated hk] at heq
    exact (hapart k heq.symm (heq ▸ h.requestID ▸ hne)).symm
  · subst hk
    rw [h.requestID, h.requestID_ne hs.isolated hj] at heq
    exact hapart j heq (h.requestID_ne hs.isolated hj ▸ hne)
  · rw [h.requestID_ne hs.isolated hj] at hne
    rw [h.requestID_ne hs.isolated hj, h.requestID_ne hs.isolated hk] at heq
    exact hs.distinct j k heq hne

/-- What a stream leaves goes into `pendingRecords`, and it is the first that it leaves. -/
lemma sound_streamComplete {hasSpan : Bool} (h : Moves F i (.streamComplete hasSpan) s s')
    (hs : s.Correlated F) : Handoff.Sound s'.pending (s'.left F) s.Logged := by
  obtain ⟨b, htracks, hid, hasks, hpending⟩ := h.pending
  have hopen : (s.callbacks i).any Callback.completes = false := by
    by_contra hdone
    exact hasks rfl (htracks.handle.trans (if_pos (Bool.not_eq_false _ ▸ hdone)))
  have hnone : F.deposited {} (s.callbacks i) = none := deposited_eq_none hopen
  have hnot : ¬s.Logged i := by
    intro hlogged
    obtain ⟨l, hl, rfl⟩ := List.mem_map.mp hlogged
    obtain ⟨r, hr, -⟩ := hs.written l hl
    rw [hnone] at hr
    cases hr
  have hleft : s.left F i = none := by rw [left, if_neg h.live, hnone, Option.map_none]
  have hleft' : s'.left F i =
      if b.record.requestID ≠ [] then some (b.record.requestID, b.record) else none := by
    rw [left, if_neg (h.own.mpr (by simp)), h.callbacks, deposited_append, hopen, if_neg (by simp),
      ← htracks.record hopen, Factory.deposited]
    split_ifs <;> rfl
  rw [h.left_eq, hleft', hpending, Callback.pendingOp]
  split_ifs with hne
  · exact hs.sound.store (hs.ownKey hid hne) hleft hnot b.record
  · rw [← hleft, Function.update_eq_self]
    exact hs.sound

lemma sound_destroy (h : Moves F i .destroy s s') (hs : s.Correlated F) :
    Handoff.Sound s'.pending (s'.left F) s.Logged := by
  obtain ⟨b, -, hid, -, hpending⟩ := h.pending
  have hown : s'.filters.own i = none := by simpa using h.own
  rw [h.left_eq, left, if_pos hown, hpending, Callback.pendingOp]
  split_ifs with hne
  · refine hs.sound.delete (hs.ownKey hid hne) fun k r hr => ?_
    exact (hs.isolated.left_key hr).1.symm.trans hid
  · have hleft : s.left F i = none := by
      refine Option.eq_none_iff_forall_ne_some.mpr fun ⟨k, r⟩ hr => hne ?_
      obtain ⟨hk, hnil⟩ := hs.isolated.left_key hr
      exact hid ▸ hk ▸ hnil
    rw [← hleft, Function.update_eq_self]
    exact hs.sound

lemma sound_other (h : Moves F i op s s') (hs : s.Correlated F) (hop : op.completes = false)
    (hdestroy : op ≠ .destroy) : Handoff.Sound s'.pending (s'.left F) s.Logged := by
  obtain ⟨b, -, -, -, hpending⟩ := h.pending
  have hleft : s'.left F i = s.left F i := by
    rw [left, left, if_neg (h.own.mpr hdestroy), if_neg h.live, h.callbacks, deposited_concat hop]
  have hnone : op.pendingOp b.record = none := by
    cases op with
    | streamComplete => cases hop
    | destroy => exact absurd rfl hdestroy
    | _ => rfl
  rw [h.left_eq, hleft, Function.update_eq_self, hpending, hnone]
  exact hs.sound

/-- **A callback** keeps the two halves together. -/
lemma correlated (h : Moves F i op s s') (hs : s.Correlated F)
    (hapart : Apart s (.filter (.callback i op))) : s'.Correlated F where
  isolated := h.isolated
  sound := by
    rw [show s'.Logged = s.Logged by funext j; rw [Logged, Logged, h.lines]]
    cases op with
    | streamComplete => exact h.sound_streamComplete hs
    | destroy => exact h.sound_destroy hs
    | _ => exact h.sound_other hs rfl (by simp)
  written l hl := by
    obtain ⟨r, hr, hline⟩ := hs.written l (h.lines ▸ hl)
    exact ⟨r, h.deposited hr, hline⟩
  once := h.lines ▸ hs.once
  distinct := h.distinct hs hapart

end Moves

/-- The record that an event finds is the one that its stream has left, and has no line yet. -/
lemma Correlated.pending (h : s.Correlated F) {ev : LogEvent} (hapart : Apart s (.onLog i ev))
    (hkey : ev.key = some k) : s.pending k = some r ↔ s.left F i = some (k, r) ∧ ¬s.Logged i := by
  have hown : Handoff.OwnKey (s.left F) i k := fun j r hj =>
    hapart j ((h.isolated.left_key hj).1.symm ▸ hkey)
  constructor
  · exact fun hr => h.sound.load hown hr
  · exact fun hr => (h.sound.pending_iff k r).mpr ⟨i, hr⟩

lemma onLog_none {ev : LogEvent} (h : ∀ k, ev.key = some k → s.pending k = none) : s.onLog i ev = s := by
  rw [onLog]
  cases hkey : ev.key with
  | none => rfl
  | some k => simp only [h k hkey]

lemma onLog_some {ev : LogEvent} (hkey : ev.key = some k) (hr : s.pending k = some r) :
    s.onLog i ev = { s with
      pending := Function.update s.pending k none
      lines := s.lines ++ [⟨i, ev, emitRecord (enrich ev r)⟩] } := by
  rw [onLog, hkey]
  simp only [hr]

/-- **An event** keeps the two halves together. -/
lemma Correlated.onLog (h : s.Correlated F) {ev : LogEvent} (hapart : Apart s (.onLog i ev)) :
    (s.onLog i ev).Correlated F := by
  by_cases hnone : ∀ k, ev.key = some k → s.pending k = none
  · rwa [onLog_none hnone]
  · obtain ⟨k, hk⟩ := not_forall.mp hnone
    obtain ⟨hkey, hsome⟩ := Classical.not_imp.mp hk
    obtain ⟨r, hr⟩ := Option.ne_none_iff_exists'.mp hsome
    obtain ⟨hleft, hnot⟩ := (h.pending hapart hkey).mp hr
    obtain ⟨-, hdeposited, rfl⟩ := left_eq_some.mp hleft
    rw [onLog_some hkey hr]
    refine { isolated := h.isolated, sound := ?_, written := ?_, once := ?_, distinct := h.distinct }
    · have hlogged : Logged { s with
          pending := Function.update s.pending r.requestID none
          lines := s.lines ++ [⟨i, ev, emitRecord (enrich ev r)⟩] } = fun j => s.Logged j ∨ j = i := by
        funext j
        simp [Logged]
      rw [hlogged]
      exact h.sound.take hleft
    · intro l hl
      rcases List.mem_append.mp hl with hl | hl
      · exact h.written l hl
      · obtain rfl := List.mem_singleton.mp hl
        exact ⟨r, hdeposited, hkey, rfl⟩
    · rw [List.map_append, List.nodup_append]
      refine ⟨h.once, List.nodup_singleton _, fun j hj k hk => ?_⟩
      obtain rfl : k = i := List.mem_singleton.mp hk
      rintro rfl
      exact hnot hj

lemma Correlated.step {l : Step} (h : s.Correlated F) (hapart : Apart s l)
    (hrun : s.step F l = some s') : s'.Correlated F := by
  cases l with
  | filter l =>
      cases l with
      | create i choice => exact h.create hrun
      | callback i op => exact (h.isolated.moves hrun).correlated h hapart
  | onLog i ev =>
      obtain rfl := Option.some.inj hrun
      exact h.onLog hapart

/-- **The two halves agree** in every run whose streams have request ids of their own. -/
theorem correlated_run {ls : List Step} (hrun : run (Logger.step F) {} ls = some s)
    (hapart : Along (Logger.step F) Apart {} ls) : s.Correlated F :=
  run_invariant_of_along (fun _ _ _ h hC hstep => Correlated.step h hC hstep) correlated_new hapart hrun

end Logger

/-- **The lines are about the right streams.**  In every run in which no two streams have the same request
id at a time, however the streams interleave and share filters:

* every line has the record that the callbacks of its stream have collected until it was complete, with
  what the event adds, and the event has the request id of this record;
* no stream has two lines;
* `pendingRecords` has exactly the records that streams have left and that no line has been written for,
  and only those of streams that are not yet destroyed;
* a filter sets tags and metadata of its own stream only. -/
theorem lines_correlate (F : Factory) {ls : List Step} {s : Logger}
    (hrun : run (Logger.step F) {} ls = some s) (hapart : Along (Logger.step F) Apart {} ls) :
    (∀ l ∈ s.lines, ∃ r, F.deposited {} (s.callbacks l.stream) = some r ∧
      l.event.key = some r.requestID ∧ l.args = emitRecord (enrich l.event r)) ∧
    (s.lines.map (·.stream)).Nodup ∧
    (∀ k r, s.pending k = some r ↔ ∃ i, s.filters.own i ≠ none ∧ i ∉ s.lines.map (·.stream) ∧
      F.deposited {} (s.callbacks i) = some r ∧ r.requestID = k) ∧
    ∀ i, ∀ e ∈ s.filters.entries i, ∀ c ∈ e.out.calls, c.1 = i := by
  have h := Logger.correlated_run hrun hapart
  refine ⟨h.written, h.once, fun k r => ?_, fun i => ?_⟩
  · rw [h.sound.pending_iff]
    refine exists_congr fun i => ?_
    rw [Logger.left_eq_some]
    exact ⟨fun ⟨⟨hown, hr, hk⟩, hnot⟩ => ⟨hown, hnot, hr, hk⟩,
      fun ⟨hown, hnot, hr, hk⟩ => ⟨⟨hown, hr, hk⟩, hnot⟩⟩
  · obtain ⟨b, hb⟩ := h.isolated.answered i
    exact calls_of_answers hb

/-- The headers of a request with an id. -/
def headersOf (id : String) : HeaderMap :=
  ⟨fun key => if key = ascii "x-request-id" then some ⟨some (ascii id)⟩ else none⟩

/-- The event for the end of this request. -/
def endOf (id : String) : LogEvent :=
  ⟨.downstreamEnd, some ⟨some (ascii id)⟩, 1, 2, 3, some 200, none, 0, none⟩

/-- Two streams at a time; the first has its line. -/
def twoStreams : List Step :=
  [.filter (.create 0 none), .filter (.callback 0 (.requestHeaders (headersOf "a") [] none)),
    .filter (.create 1 none), .filter (.callback 1 (.requestHeaders (headersOf "b") [] none)),
    .filter (.callback 0 (.streamComplete false)), .filter (.callback 1 (.streamComplete true)),
    .onLog 0 (endOf "a")]

lemma twoStreams_apart (F : Factory) : Along (Logger.step F) Apart {} twoStreams := by
  refine (along_cons rfl).mpr ⟨trivial, (along_cons rfl).mpr ⟨fun j _ hne => ?_, (along_cons rfl).mpr
    ⟨trivial, (along_cons rfl).mpr ⟨fun j hid hne => ?_, (along_cons rfl).mpr ⟨fun j hid hne => ?_,
      (along_cons rfl).mpr ⟨fun j hid hne => ?_, (along_cons rfl).mpr ⟨fun j hid => ?_, trivial⟩⟩⟩⟩⟩⟩⟩
  · match j with
    | 0 => rfl
    | _ + 1 => exact absurd rfl hne
  all_goals
    match j with
    | 0 => first | rfl | cases hid
    | 1 => first | rfl | cases hid
    | _ + 2 => cases hid

/-- What the second one has left is still there. -/
theorem lines_correlate_twoStreams :
    let F : Factory := ⟨{}, by decide⟩
    ∃ s, run (Logger.step F) {} twoStreams = some s ∧
      ∃ r, s.pending (ascii "b") = some r ∧ F.deposited {} (s.callbacks 1) = some r := by
  intro F
  obtain ⟨s, hrun, hown, hlines, r, hr, hid⟩ : ∃ s, run (Logger.step F) {} twoStreams = some s ∧
      s.filters.own 1 ≠ none ∧ s.lines.map (·.stream) = [0] ∧
      ∃ r, F.deposited {} (s.callbacks 1) = some r ∧ r.requestID = ascii "b" :=
    ⟨_, rfl, Option.some_ne_none 1, rfl, _, rfl, rfl⟩
  obtain ⟨-, -, hpending, -⟩ := lines_correlate F hrun (twoStreams_apart F)
  exact ⟨s, hrun, r, (hpending _ r).mpr ⟨1, hown, by simp [hlines], hr, hid⟩, hr⟩

/-- **A stream gets its line.**  In every such state, an event for the end of a stream that is not yet
destroyed writes a line exactly if the stream has left a record and has no line, and it is the line for this
record. -/
theorem onLog_writes (F : Factory) {ls : List Step} {s : Logger}
    (hrun : run (Logger.step F) {} ls = some s) (hapart : Along (Logger.step F) Apart {} ls) {i : ℕ}
    {ev : LogEvent} (hown : s.filters.own i ≠ none) (hkey : ev.key = some (s.requestID i)) :
    (s.onLog i ev).lines = s.lines ++
      if i ∈ s.lines.map (·.stream) then []
      else ((F.deposited {} (s.callbacks i)).map fun r => ⟨i, ev, emitRecord (enrich ev r)⟩).toList := by
  have h := Logger.correlated_run hrun hapart
  have hapart : Apart s (.onLog i ev) := fun j hj =>
    h.distinct j i (Option.some.inj (hj.symm.trans hkey)) (LogEvent.key_ne_nil hj)
  have hpending {r : Record} : s.pending (s.requestID i) = some r ↔
      F.deposited {} (s.callbacks i) = some r ∧ ¬s.Logged i := by
    rw [h.pending hapart hkey, Logger.left_eq_some]
    refine and_congr_left fun _ => ⟨fun hr => hr.2.1, fun hr => ⟨hown, hr, ?_⟩⟩
    exact ((h.isolated.left_key (Logger.left_eq_some.mpr ⟨hown, hr, rfl⟩)).1).symm
  split_ifs with hlogged
  · rw [Logger.onLog_none, List.append_nil]
    intro k hk
    obtain rfl := Option.some.inj (hkey.symm.trans hk)
    exact Option.eq_none_iff_forall_ne_some.mpr fun r hr => (hpending.mp hr).2 hlogged
  · cases hr : F.deposited {} (s.callbacks i) with
    | some r => rw [Logger.onLog_some hkey (hpending.mpr ⟨hr, hlogged⟩)]; rfl
    | none =>
        rw [Logger.onLog_none, Option.map_none, Option.toList_none, List.append_nil]
        intro k hk
        obtain rfl := Option.some.inj (hkey.symm.trans hk)
        refine Option.eq_none_iff_forall_ne_some.mpr fun r hr' => ?_
        rw [(hpending.mp hr').1] at hr
        cases hr

/-- An event for the second one. -/
theorem onLog_writes_twoStreams :
    ∃ s, run (Logger.step ⟨{}, by decide⟩) {} twoStreams = some s ∧
      (s.onLog 1 (endOf "b")).lines.map (·.stream) = [0, 1] := by
  let F : Factory := ⟨{}, by decide⟩
  obtain ⟨s, hrun, hown, hkey, hlines, r, hr⟩ : ∃ s, run (Logger.step F) {} twoStreams = some s ∧
      s.filters.own 1 ≠ none ∧ (endOf "b").key = some (s.requestID 1) ∧ s.lines.map (·.stream) = [0] ∧
      ∃ r, F.deposited {} (s.callbacks 1) = some r := ⟨_, rfl, Option.some_ne_none 1, rfl, rfl, _, rfl⟩
  refine ⟨s, hrun, ?_⟩
  rw [onLog_writes F hrun (twoStreams_apart F) hown hkey, hlines, if_neg (by decide), hr, List.map_append,
    hlines]
  rfl

end Luwes.RequestLogger
