import Luwes.Examples.MemStore
import Luwes.Examples.ResponseFlags
import Luwes.Examples.ResponseTap
import Luwes.Lib.Decimal
import Luwes.Shared.AccessLogger

/-!
# Recording requests (`sahl/examples/request-ui/filter.go`, `accesslogger.go`)

The response observer leaves a record of the request in `PendingRecords`, and the access logger takes it
out, adds what is known at the end of the stream, and sends it to the sink.

The observer tells the headers call from the body calls by `chunk.StatusCode != 0`, and as sahl keeps the
status in the chunk, every call looks like the one for the headers: each leaves a record of its own over
the one before, and only the first has the response headers; with `record_response_body` none is left at
all.  What the sink is sent follows (`record_sent`).
-/

namespace Luwes.RequestUi

open LabelledRun Sahl

/-! ## The observer (`filter.go`) -/

/-- `filterConfig`, with what the observer reads of it; `Register` puts a limit that is not positive
right. -/
structure FilterConfig where
  recordResponseHeaders : Bool := true
  recordResponseBody : Bool := false
  maxBodyBytes : ℤ := 4096
  maxBodyBytes_pos : 0 < maxBodyBytes := by decide

/-- `reqState`. -/
structure ReqState where
  requestID : GoString := []
  method : GoString := []
  path : GoString := []
  host : GoString := []
  traceID : GoString := []
  spanID : GoString := []
  requestHeaders : List (GoString × GoString) := []
  requestBody : GoString := []
  upstreamAddress : GoString := []
  responseHeaders : List (GoString × GoString) := []
  responseBody : GoString := []
  errorDetails : GoString := []
  deriving DecidableEq, Repr

/-- What the Writer answers in a call of the observer, and the headers that `chunk.Headers` has. -/
structure Attributes where
  requestId : Option UnsafeEnvoyBuffer := none
  requestMethod : Option UnsafeEnvoyBuffer := none
  requestPath : Option UnsafeEnvoyBuffer := none
  requestHost : Option UnsafeEnvoyBuffer := none
  traceID : Option UnsafeEnvoyBuffer := none
  spanID : Option UnsafeEnvoyBuffer := none
  upstreamAddress : Option UnsafeEnvoyBuffer := none
  localReplyDetails : GoString := []
  headers : HeaderSlice := []

/-- A string attribute, or what is there if there is none. -/
def attrString (v : Option UnsafeEnvoyBuffer) (old : GoString) : GoString := (v.map (·.toString)).getD old

/-- The record with all its fields.  A float is given by the integer that it is made of. -/
structure FullRecord extends Record where
  host : GoString := []
  traceID : GoString := []
  spanID : GoString := []
  requestHeaders : GoString := []
  requestBody : GoString := []
  upstreamStatus : GoString := []
  upstreamAddress : GoString := []
  responseHeaders : GoString := []
  responseBody : GoString := []
  durationNs : ℤ := 0
  requestSizeBytes : UInt64 := 0
  responseSizeBytes : UInt64 := 0
  responseCode : ℤ := 0
  upstreamCxPoolReadyNs : ℤ := 0
  upstreamLocalAddress : GoString := []
  upstreamRequestAttempts : UInt32 := 0
  requestProtocol : GoString := []
  wireBytesReceived : UInt64 := 0
  wireBytesSent : UInt64 := 0
  traceIDFinal : GoString := []
  spanIDFinal : GoString := []
  traceSampled : Bool := false
  localReplyBody : GoString := []
  deriving DecidableEq, Repr

/-- The loop of `statusStr`. -/
def statusStrLoop (code : ℕ) (b : GoString) : GoString :=
  if code = 0 then b else statusStrLoop (code / 10) (UInt8.ofNat (48 + code % 10) :: b)

/-- `statusStr`; the loop does nothing for a negative number. -/
def statusStr (code : Int64) : GoString := statusStrLoop code.toNatClampNeg []

/-- `json.Marshal` of headers. -/
abbrev Marshal := List (GoString × GoString) → Option GoString

/-- The text of headers that are there. -/
def headersText (marshal : Marshal) (headers : List (GoString × GoString)) : GoString :=
  if 0 < headers.length then (marshal headers).getD [] else []

/-- `buildRecord`. -/
def buildRecord (marshal : Marshal) (statusCode : Int64) (st : ReqState) : FullRecord where
  requestID := st.requestID
  method := st.method
  path := st.path
  host := st.host
  traceID := st.traceID
  spanID := st.spanID
  requestBody := st.requestBody
  upstreamAddress := st.upstreamAddress
  responseBody := st.responseBody
  errorDetails := st.errorDetails
  responseCode := statusCode.toInt
  upstreamStatus := statusStr statusCode
  requestHeaders := headersText marshal st.requestHeaders
  responseHeaders := headersText marshal st.responseHeaders

/-- What the observer collects in a call that it takes for the headers call. -/
def reqState (cfg : FilterConfig) (a : Attributes) (hasHeaders : Bool) : ReqState where
  requestID := attrString a.requestId []
  method := attrString a.requestMethod []
  path := attrString a.requestPath []
  host := attrString a.requestHost []
  traceID := attrString a.traceID []
  spanID := attrString a.spanID []
  upstreamAddress := attrString a.upstreamAddress []
  errorDetails := a.localReplyDetails
  responseHeaders :=
    if cfg.recordResponseHeaders && hasHeaders then a.headers.map fun h => (h.1.toString, h.2.toString) else []

/-- The body that is kept. -/
def cutBody (cfg : FilterConfig) (data : Bytes) : GoString :=
  if data.length > cfg.maxBodyBytes then data.take cfg.maxBodyBytes.toNat else data

/-- The observer of a request between two calls: the state in the context slot, the calls so far, and what
it has stored in `PendingRecords`. -/
structure Watch where
  context : Option ReqState := none
  calls : ℕ := 0
  stored : List FullRecord := []
  deriving DecidableEq, Repr

/-- `PendingRecords.Store` under the request id. -/
def Watch.store (w : Watch) (r : FullRecord) : Watch :=
  if r.requestID ≠ [] then { w with stored := w.stored ++ [r] } else w

/-- The observer.  The attributes are those of the call; a nil Writer or a nil context slot panics.  The
state that the context slot points to is zeroed when it goes back to `statePool`. -/
def observe (cfg : FilterConfig) (marshal : Marshal) (attrs : ℕ → Attributes) (w : Watch) (call : TapCall) :
    Option Watch :=
  let chunk := call.chunk
  let w' := { w with calls := w.calls + 1 }
  if chunk.statusCode ≠ 0 then
    if !call.hasWriter then none
    else
      let st := reqState cfg (attrs w.calls) chunk.headers
      if cfg.recordResponseBody then
        if chunk.context then some { w' with context := some st } else none
      else some (w'.store (buildRecord marshal chunk.statusCode st))
  else if !chunk.context then none
  else
    match w.context with
    | none => some w'
    | some st =>
      if chunk.endStream then
        let data := chunk.data.getD []
        let st := if 0 < data.length then { st with responseBody := cutBody cfg data } else st
        some ({ w' with context := some {} }.store (buildRecord marshal chunk.statusCode st))
      else some w'

/-! ## The access logger (`accesslogger.go`) -/

/-- An event, with all that the access logger asks. -/
structure UiEvent extends LogEvent where
  method : Option UnsafeEnvoyBuffer
  path : Option UnsafeEnvoyBuffer
  authority : Option UnsafeEnvoyBuffer
  upstreamAddress : Option UnsafeEnvoyBuffer
  wireBytesReceived : UInt64
  wireBytesSent : UInt64
  upstreamPoolReadyDurationNs : ℤ
  upstreamRequestAttemptCount : UInt32
  upstreamLocalAddress : Option UnsafeEnvoyBuffer
  requestProtocol : Option UnsafeEnvoyBuffer
  traceID : Option UnsafeEnvoyBuffer
  spanID : Option UnsafeEnvoyBuffer
  isTraceSampled : Bool
  localReplyBody : Option UnsafeEnvoyBuffer

/-- `buildMinimalRecord`. -/
def buildMinimalRecord (ev : UiEvent) (requestID : GoString) : FullRecord where
  requestID := requestID
  method := attrString ev.method []
  path := attrString ev.path []
  host := attrString ev.authority []
  upstreamAddress := attrString ev.upstreamAddress []

/-- The test for an error; `OnLog` has it in the text of its own. -/
def hasError (r : FullRecord) : Bool :=
  r.errorDetails ≠ [] || r.upstreamFailure ≠ [] ||
    (r.responseFlags ≠ [] && containsErrorFlag r.responseFlags) || r.responseCode ≥ 500

/-- What `OnLog` adds to a record before it has the error mark. -/
def finalize (ev : UiEvent) (r : FullRecord) : FullRecord :=
  { r with
    durationNs := if 0 ≤ ev.requestCompleteDurationNs then ev.requestCompleteDurationNs else r.durationNs
    requestSizeBytes := ev.bytesReceived
    responseSizeBytes := ev.bytesSent
    responseCode := match ev.responseCode with
      | some v => if 0 < v then v else r.responseCode
      | none => r.responseCode
    responseCodeDetails := orElse ev.responseCodeDetails r.responseCodeDetails
    responseFlags := if responseFlags ev.responseFlags ≠ [] then responseFlags ev.responseFlags
      else r.responseFlags
    upstreamFailure := orElse ev.upstreamTransportFailureReason r.upstreamFailure
    wireBytesReceived := ev.wireBytesReceived
    wireBytesSent := ev.wireBytesSent
    upstreamCxPoolReadyNs := if 0 ≤ ev.upstreamPoolReadyDurationNs then ev.upstreamPoolReadyDurationNs
      else r.upstreamCxPoolReadyNs
    upstreamRequestAttempts := ev.upstreamRequestAttemptCount
    upstreamLocalAddress := orElse ev.upstreamLocalAddress r.upstreamLocalAddress
    requestProtocol := orElse ev.requestProtocol r.requestProtocol
    traceIDFinal := orElse ev.traceID r.traceIDFinal
    spanIDFinal := orElse ev.spanID r.spanIDFinal
    traceSampled := ev.isTraceSampled
    localReplyBody := orElse ev.localReplyBody r.localReplyBody }

/-- `OnLog` up to the call of `Send`: the record is marked if there was an error. -/
def enrich (ev : UiEvent) (r : FullRecord) : FullRecord :=
  { finalize ev r with hasError := hasError (finalize ev r) }

/-- `OnLog`: what is left in `PendingRecords`, and the record that the sink is sent. -/
def onLog (pending : GoString → Option FullRecord) (ev : UiEvent) :
    (GoString → Option FullRecord) × Option FullRecord :=
  match ev.key with
  | none => (pending, none)
  | some key =>
    (Function.update pending key none,
      some (enrich ev ((pending key).getD (buildMinimalRecord ev key))))

/-! ## The status -/

lemma statusStrLoop_eq (n : ℕ) (b : GoString) : statusStrLoop n b =
    ((Nat.digits 10 n).reverse.map fun d => UInt8.ofNat (48 + d)) ++ b := by
  induction n using Nat.strongRecOn generalizing b with
  | ind n ih =>
      rw [statusStrLoop]
      split_ifs with hn
      · simp [hn]
      · rw [ih (n / 10) (Nat.div_lt_self (Nat.pos_of_ne_zero hn) (by decide)),
          Nat.digits_def' (by decide) (Nat.pos_of_ne_zero hn)]
        simp

lemma parseStatusLoop_append {s : GoString} (hs : s.all Decimal.isDigit) (n : ℕ) (rest : GoString) :
    parseStatusLoop (Int64.ofNat n) (s ++ rest) =
      parseStatusLoop (Int64.ofNat (s.foldl (fun n b => n * 10 + (b.toNat - 48)) n)) rest := by
  induction s generalizing n with
  | nil => rfl
  | cons c s ih =>
      obtain ⟨hc, hs⟩ : Decimal.isDigit c = true ∧ s.all Decimal.isDigit = true := by
        simpa using hs
      have hdigit : ¬(c < 48 || c > 57) = true := by
        simp [Decimal.isDigit, UInt8.lt_iff_toNat_lt] at hc ⊢
        omega
      rw [List.cons_append, parseStatusLoop, if_neg hdigit, List.foldl_cons, ← ih hs, Int64.ofNat_add,
        Int64.ofNat_mul]
      rfl

lemma parseStatusLoop_stop {n : Int64} {rest : GoString}
    (hrest : ∀ c ∈ rest.head?, Decimal.isDigit c = false) : parseStatusLoop n rest = n := by
  cases rest with
  | nil => rfl
  | cons c rest =>
      have hc := hrest c rfl
      rw [parseStatusLoop, if_pos]
      simp [Decimal.isDigit, UInt8.lt_iff_toNat_lt] at hc ⊢
      omega

/-- **The status that is recorded** is the one of the header: a number without leading zeros, whatever
comes after it, is written as it was read. -/
theorem statusStr_parseStatus {s rest : GoString} {n : ℕ} (hs : Decimal.parse s = some n)
    (hlead : s.head? ≠ some 48) (hn : n < 2 ^ 63) (hrest : ∀ c ∈ rest.head?, Decimal.isDigit c = false) :
    statusStr (parseStatus (s ++ rest)) = s := by
  have hformat := Decimal.format_parse hs hlead
  rw [Decimal.parse] at hs
  split_ifs at hs with hdigits
  have hparse : parseStatus (s ++ rest) = Int64.ofNat n := by
    rw [← Option.some.inj hs, parseStatus]
    exact (parseStatusLoop_append hdigits.2 0 rest).trans (parseStatusLoop_stop hrest)
  have hne : n ≠ 0 := by
    rintro rfl
    rw [Decimal.format, if_pos rfl] at hformat
    exact hlead (hformat ▸ rfl)
  rw [hparse, statusStr, Int64.toNatClampNeg_ofNat_of_lt hn, statusStrLoop_eq, List.append_nil]
  rwa [Decimal.format, if_neg hne] at hformat

/-- A status line. -/
theorem statusStr_parseStatus_ok : statusStr (parseStatus (ascii "200" ++ ascii " OK")) = ascii "200" :=
  statusStr_parseStatus (n := 200) (by decide) (by decide) (by decide)
    fun _ hc => Option.some.inj hc ▸ (by decide)

/-! ## What the observer leaves -/

/-- The status of the response. -/
def statusOf (headers : HeaderMap) : Int64 :=
  ((nonEmptyHeader headers ":status").map fun buf => parseStatus buf.toString).getD 0

/-- The record that a call leaves which looks like the one for the headers; the first one is. -/
def recordAt (cfg : FilterConfig) (marshal : Marshal) (attrs : ℕ → Attributes) (status : Int64) (k : ℕ) :
    FullRecord :=
  buildRecord marshal status (reqState cfg (attrs k) (k = 0))

/-- What is left in `n` calls. -/
def deposits (cfg : FilterConfig) (marshal : Marshal) (attrs : ℕ → Attributes) (status : Int64) (n : ℕ) :
    List FullRecord :=
  if status = 0 ∨ cfg.recordResponseBody then []
  else ((List.range n).map (recordAt cfg marshal attrs status)).filter (·.requestID ≠ [])

/-- The observer after `n` calls. -/
structure Watching (cfg : FilterConfig) (marshal : Marshal) (attrs : ℕ → Attributes) (status : Int64)
    (n : ℕ) (w : Watch) : Prop where
  calls : w.calls = n
  context : status = 0 → w.context = none
  stored : w.stored = deposits cfg marshal attrs status n

section

variable {cfg : FilterConfig} {marshal : Marshal} {attrs : ℕ → Attributes} {headers : HeaderMap} {n : ℕ}
  {w : Watch} {call : TapCall}

lemma Watch.store_stored (w : Watch) (r : FullRecord) :
    (w.store r).stored = w.stored ++ [r].filter (·.requestID ≠ []) := by
  rw [Watch.store]
  split_ifs with h <;> simp [h]

lemma observe_watching (h : Watching cfg marshal attrs (statusOf headers) n w) (hcall : call.Sound headers)
    (hheaders : call.chunk.headers = decide (n = 0)) :
    ∃ w', observe cfg marshal attrs w call = some w' ∧
      Watching cfg marshal attrs (statusOf headers) (n + 1) w' := by
  have hstatus : call.chunk.statusCode = statusOf headers := hcall.taken.statusCode
  rw [observe, hstatus, h.calls, hheaders]
  dsimp only
  by_cases hzero : statusOf headers = 0
  · have hnone : ∀ n, deposits cfg marshal attrs (statusOf headers) n = [] := fun n => if_pos (.inl hzero)
    rw [if_neg (by simpa using hzero), if_neg (by simp [hcall.context]), h.context hzero]
    exact ⟨_, rfl, rfl, fun _ => rfl, by rw [hnone]; exact h.stored.trans (hnone n)⟩
  rw [if_pos hzero, if_neg (by simp [hcall.hasWriter])]
  by_cases hbody : cfg.recordResponseBody = true
  · have hnone : ∀ n, deposits cfg marshal attrs (statusOf headers) n = [] := fun n => if_pos (.inr hbody)
    rw [if_pos hbody, if_pos hcall.context]
    exact ⟨_, rfl, rfl, fun h => absurd h hzero, by rw [hnone]; exact h.stored.trans (hnone n)⟩
  · rw [if_neg hbody]
    refine ⟨_, rfl, ?_, fun h => absurd h hzero, ?_⟩
    · rw [Watch.store]
      split_ifs <;> rfl
    · have hsome : ∀ n, deposits cfg marshal attrs (statusOf headers) n = _ :=
        fun n => if_neg (not_or.mpr ⟨hzero, hbody⟩)
      rw [Watch.store_stored, h.stored, hsome, hsome, List.range_succ, List.map_append, List.filter_append]
      rfl

lemma run_watching {bodies : List (List UnsafeEnvoyBuffer × Bool)} {calls : List TapCall}
    (hcalls : List.Forall₂ (TapCall.Carries headers) bodies calls) (hn : n ≠ 0)
    (h : Watching cfg marshal attrs (statusOf headers) n w) :
    ∃ w', run (observe cfg marshal attrs) w calls = some w' ∧
      Watching cfg marshal attrs (statusOf headers) (n + bodies.length) w' := by
  induction hcalls generalizing n w with
  | nil => exact ⟨w, rfl, h⟩
  | @cons b call bodies calls hcall _ ih =>
      obtain ⟨m, hm, hI⟩ := observe_watching h hcall.toSound (hcall.hasHeaders.trans (decide_eq_false hn).symm)
      obtain ⟨w', hw', hI'⟩ := ih (Nat.succ_ne_zero n) hI
      refine ⟨w', run_cons_eq_some.mpr ⟨m, hm, hw'⟩, ?_⟩
      rwa [List.length_cons, Nat.add_comm bodies.length, ← Nat.add_assoc]

end

lemma observe_deposits (cfg : FilterConfig) (marshal : Marshal) (attrs : ℕ → Attributes) {r : ℕ}
    {d : FilterDef} {ls : List State.Label} {s : State} (hd : d.responseFn.isSome = true)
    (hrun : run State.step (State.new r d) ls = some s)
    (hafter : Along State.step State.AfterRequest (State.new r d) ls) {headers : HeaderMap}
    {bodies : List (List UnsafeEnvoyBuffer × Bool)}
    (hresponse : ls.filterMap State.Label.responseCall = responseOf headers bodies) :
    ∃ w, run (observe cfg marshal attrs) {} (tapCalls s.trace) = some w ∧
      w.stored = deposits cfg marshal attrs (statusOf headers) (bodies.length + 1) := by
  obtain ⟨first, rest, hcalls, hfirst, -, -, hheaders, hrest⟩ := tapCalls_responseOf hd hrun hafter hresponse
  have hnew : Watching cfg marshal attrs (statusOf headers) 0 {} :=
    ⟨rfl, fun _ => rfl, by rw [deposits]; split_ifs <;> rfl⟩
  obtain ⟨m, hm, hI⟩ := observe_watching hnew hfirst hheaders
  obtain ⟨w, hw, hI'⟩ := run_watching hrest Nat.one_ne_zero hI
  refine ⟨w, by rw [hcalls]; exact run_cons_eq_some.mpr ⟨m, hm, hw⟩, ?_⟩
  rw [hI'.stored, Nat.add_comm]

/-! ## What the sink is sent -/

/-- `PendingRecords` with what has been stored. -/
def pendingAfter (pending : GoString → Option FullRecord) (stored : List FullRecord) :
    GoString → Option FullRecord :=
  stored.foldl (fun p r => Function.update p r.requestID (some r)) pending

/-- The last record under a key is there, and with it gone all is as before. -/
lemma pendingAfter_of_forall (pending : GoString → Option FullRecord) {k : GoString} {stored : List FullRecord}
    (h : ∀ r ∈ stored, r.requestID = k) :
    pendingAfter pending stored k = stored.getLast?.or (pending k) ∧
      Function.update (pendingAfter pending stored) k none = Function.update pending k none := by
  induction stored using List.reverseRecOn with
  | nil => exact ⟨rfl, rfl⟩
  | append_singleton stored r ih =>
      obtain rfl : r.requestID = k := h r (by simp)
      have hrest := ih fun r hr => h r (by simp [hr])
      have hconcat : pendingAfter pending (stored ++ [r]) =
          Function.update (pendingAfter pending stored) r.requestID (some r) := List.foldl_concat ..
      rw [hconcat]
      exact ⟨by simp, by rw [Function.update_idem, hrest.2]⟩

/-- The record of a request of which the observer has been called with the headers and `n` bodies. -/
def recordOf (cfg : FilterConfig) (marshal : Marshal) (attrs : ℕ → Attributes) (status : Int64) (n : ℕ)
    (ev : UiEvent) (key : GoString) : FullRecord :=
  if status = 0 ∨ cfg.recordResponseBody then buildMinimalRecord ev key
  else recordAt cfg marshal attrs status n

/-- There was an error, as the event and the record tell. -/
def Failed (ev : UiEvent) (r : FullRecord) : Prop :=
  r.errorDetails ≠ [] ∨ (∃ v ∈ ev.upstreamTransportFailureReason, 0 < v.len) ∨
    (∃ i ∈ errorFlags, ev.responseFlags.toNat.testBit i = true) ∨
    500 ≤ (ev.responseCode.filter (0 < ·)).getD r.responseCode

section

variable {cfg : FilterConfig} {marshal : Marshal} {attrs : ℕ → Attributes} {status : Int64} {n : ℕ}
  {ev : UiEvent} {key : GoString}

/-- **The event takes the last record** and leaves what others have left. -/
lemma onLog_deposits (hkey : ev.key = some key) (hid : ∀ k ≤ n, attrString (attrs k).requestId [] = key)
    {pending : GoString → Option FullRecord} (hnone : pending key = none) :
    onLog (pendingAfter pending (deposits cfg marshal attrs status (n + 1))) ev =
      (pending, some (enrich ev (recordOf cfg marshal attrs status n ev key))) := by
  have hne := LogEvent.key_ne_nil hkey
  have hdeposits : ∀ r ∈ deposits cfg marshal attrs status (n + 1), r.requestID = key := by
    intro r hr
    rw [deposits] at hr
    split_ifs at hr
    · cases hr
    · obtain ⟨k, hk, rfl⟩ := List.mem_map.mp (List.mem_filter.mp hr).1
      exact hid k (Nat.lt_succ_iff.mp (List.mem_range.mp hk))
  obtain ⟨hlast, hrest⟩ := pendingAfter_of_forall pending hdeposits
  have hkept : Function.update pending key none = pending := by rw [← hnone, Function.update_eq_self]
  rw [onLog, hkey]
  dsimp only
  rw [hlast, hrest, hkept, hnone, Option.or_none, recordOf, deposits]
  split_ifs with hnothing
  · rfl
  · have hall : ∀ r ∈ (List.range (n + 1)).map (recordAt cfg marshal attrs status),
        decide (r.requestID ≠ []) = true := by
      intro r hr
      obtain ⟨k, hk, rfl⟩ := List.mem_map.mp hr
      have hkey : (recordAt cfg marshal attrs status k).requestID = key :=
        hid k (Nat.lt_succ_iff.mp (List.mem_range.mp hk))
      rw [hkey]
      exact decide_eq_true hne
    rw [List.filter_eq_self.mpr hall, List.range_succ, List.map_append, List.getLast?_append]
    rfl

lemma orElse_nil_ne {v : Option UnsafeEnvoyBuffer} : orElse v [] ≠ [] ↔ ∃ b ∈ v, 0 < b.len := by
  rcases v with _ | ⟨_ | _ | _⟩ <;> simp [orElse, UnsafeEnvoyBuffer.len, UnsafeEnvoyBuffer.toString]

/-- **The error mark** tells whether there was an error. -/
lemma enrich_hasError {r : FullRecord} (hflags : r.responseFlags = []) (hfailure : r.upstreamFailure = []) :
    (enrich ev r).hasError = true ↔ Failed ev r := by
  have hmask : (if responseFlags ev.responseFlags ≠ [] then responseFlags ev.responseFlags else []) =
      responseFlags ev.responseFlags := by
    split_ifs with h
    · rfl
    · exact (not_not.mp h).symm
  have hletters : responseFlags ev.responseFlags ≠ [] ∧
        containsErrorFlag (responseFlags ev.responseFlags) = true ↔
      ∃ i ∈ errorFlags, ev.responseFlags.toNat.testBit i = true := by
    rw [containsErrorFlag_iff, infix_responseFlags, and_iff_right_of_imp]
    intro hbit hnil
    obtain ⟨f, hf, hinfix⟩ := infix_responseFlags.mpr hbit
    rw [hnil, List.infix_nil] at hinfix
    subst hinfix
    revert hf
    decide
  have hcode : (finalize ev r).responseCode = (ev.responseCode.filter (0 < ·)).getD r.responseCode := by
    rw [finalize]
    cases ev.responseCode with
    | none => rfl
    | some v => by_cases hv : 0 < v <;> simp [Option.filter, hv]
  have hflags : (finalize ev r).responseFlags = responseFlags ev.responseFlags := by
    rw [finalize, hflags]
    exact hmask
  have hfailure : (finalize ev r).upstreamFailure = orElse ev.upstreamTransportFailureReason [] := by
    rw [finalize, hfailure]
  change hasError (finalize ev r) = true ↔ _
  rw [hasError, hcode, hflags, hfailure, Failed, ← hletters, ← orElse_nil_ne]
  simp [finalize, or_assoc]

end

/-- **What becomes of a request.**  In every run of a filter with this observer in which the request comes
before the response, the observer never panics.  Where bodies are to be recorded, or the response has no
status, it leaves nothing at all; otherwise every call of it with a request id leaves a record, that for the
headers and each one for a body buffer, and only the first of these has the response headers.  A call that is
given an empty id leaves nothing.

If the host gives it the same request id in all calls, and nothing was pending under this id before, the event
for the end of the stream takes the last of these records out, and a record made from the event alone if there
is none, leaves what other requests have left, and sends the sink this record with what the event adds, marked
exactly if there was an error. -/
theorem record_sent (cfg : FilterConfig) (marshal : Marshal) (attrs : ℕ → Attributes) {r : ℕ}
    {d : FilterDef} {ls : List State.Label} {s : State} (hd : d.responseFn.isSome = true)
    (hrun : run State.step (State.new r d) ls = some s)
    (hafter : Along State.step State.AfterRequest (State.new r d) ls) (headers : HeaderMap)
    (bodies : List (List UnsafeEnvoyBuffer × Bool))
    (hresponse : ls.filterMap State.Label.responseCall = responseOf headers bodies) :
    ∃ w, run (observe cfg marshal attrs) {} (tapCalls s.trace) = some w ∧
      w.stored = deposits cfg marshal attrs (statusOf headers) (bodies.length + 1) ∧
      ∀ (ev : UiEvent) (key : GoString) (pending : GoString → Option FullRecord),
        ev.key = some key → (∀ k ≤ bodies.length, attrString (attrs k).requestId [] = key) →
        pending key = none →
        let sent := recordOf cfg marshal attrs (statusOf headers) bodies.length ev key
        onLog (pendingAfter pending w.stored) ev = (pending, some (enrich ev sent)) ∧
          ((enrich ev sent).hasError = true ↔ Failed ev sent) := by
  obtain ⟨w, hw, hstored⟩ := observe_deposits cfg marshal attrs hd hrun hafter hresponse
  refine ⟨w, hw, hstored, fun ev key pending hkey hid hnone => ⟨?_, ?_⟩⟩
  · rw [hstored]
    exact onLog_deposits hkey hid hnone
  · apply enrich_hasError <;> rw [recordOf] <;> split_ifs <;> rfl

/-- The headers of a good response. -/
def okHeaders : HeaderMap where
  getOneInto key := if key = ascii ":status" then some ⟨some (ascii "200")⟩ else none

/-- A response with one body buffer. -/
def okResponse : List State.Label :=
  [.requestHeaders true, .worker {}, .responseHeaders okHeaders, .worker {},
    .responseBody [⟨some (ascii "ok")⟩] true, .worker {}]

/-- The host's answers, with one response header. -/
def okAttributes : Attributes :=
  { requestId := some ⟨some (ascii "a")⟩, headers := [(⟨some (ascii "x")⟩, ⟨some (ascii "y")⟩)] }

/-- It leaves two records, the last without the response headers. -/
theorem record_sent_okResponse :
    ∃ s w, run State.step (State.new 0 tapFilter) okResponse = some s ∧
      run (observe {} (fun _ => some (ascii "headers")) fun _ => okAttributes) {} (tapCalls s.trace) = some w ∧
      w.stored.map (fun r => (r.requestID, r.responseHeaders)) =
        [(ascii "a", ascii "headers"), (ascii "a", [])] := by
  obtain ⟨s, hrun⟩ : ∃ s, run State.step (State.new 0 tapFilter) okResponse = some s := ⟨_, rfl⟩
  obtain ⟨w, hw, hstored, -⟩ := record_sent {} (fun _ => some (ascii "headers")) (fun _ => okAttributes) rfl
    hrun (by decide) okHeaders [([⟨some (ascii "ok")⟩], true)] rfl
  refine ⟨s, w, hrun, hw, ?_⟩
  rw [hstored]
  decide

end Luwes.RequestUi
