import Luwes.Lib.PooledRefs
import Luwes.Shared.Api
import Luwes.Shared.Strings

/-!
# A filter that asks before it lets pass (`examples/error-handling/error_handling.go`)

`OnRequestHeaders` asks an authorization service with a callout and stops the request; `OnHttpCalloutDone`
continues it or answers it.  The filter is its own callback, and it comes from a pool: the host keeps a
reference to the filter, not to the stream, and unlike the filter of sahl this one does not look whether its
stream is complete.  It is the dispatcher of the ABI that does, and drops a callout that is done later
(`dispatched_own`).

A callout that is done in time decides for its own stream, once (`decided_once`); only the body and the
trailers are not held back, since the filter inherits `OnRequestBody` and `OnRequestTrailers`, and they let
the request go on.

Logging is left out.
-/

namespace Luwes.ErrorHandling

open LabelledRun History PooledRefs
open PooledStreams (Entry entriesOf)

/-! ## The filter -/

/-- What is called on a handle. -/
inductive Call
  | httpCallout (cluster : GoString) (headers : List (GoString × GoString)) (timeoutMs : ℕ)
  | incrementCounter (id n : ℕ) (tag : GoString)
  | sendLocalResponse (statusCode : UInt32) (body : Bytes) (detail : GoString)
  | setRequestHeader (key value : GoString)
  | setResponseHeader (key value : GoString)
  | continueRequest
  deriving DecidableEq, Repr

/-- The call decides about the request. -/
def Call.decides : Call → Bool
  | .sendLocalResponse _ _ _ | .continueRequest => true
  | _ => false

/-- The metrics of `Factory`; 0 for one that could not be defined. -/
structure Metrics where
  calloutInitFail : ℕ := 0
  calloutNetFail : ℕ := 0
  calloutUpstreamErr : ℕ := 0
  localReplyObserved : ℕ := 0
  responseFlags : ℕ := 0

/-- `Filter`. -/
structure Filter (ι : Type*) where
  handle : Option ι := none
  path : GoString := []

/-- A callback, with what the host answers in it. -/
inductive Op
  | requestHeaders (headers : HeaderMap) (init : HttpCalloutInitResult)
  | requestBody
  | requestTrailers
  | responseHeaders
  | responseBody
  | responseTrailers
  | httpCalloutDone (result : HttpCalloutResult) (headers : HeaderSlice)
  | localReply (responseCode : UInt32) (details : UnsafeEnvoyBuffer) (resetImminent : Bool)
  | streamComplete (flags : Option UnsafeEnvoyBuffer)

/-- What a callback returns. -/
inductive Status
  | requestHeaders (st : HeadersStatus)
  | requestBody (st : BodyStatus)
  | requestTrailers (st : TrailersStatus)
  | responseHeaders (st : HeadersStatus)
  | responseBody (st : BodyStatus)
  | responseTrailers (st : TrailersStatus)
  | localReply (st : LocalReplyStatus)
  | done
  deriving DecidableEq, Repr

/-- What a callback calls on which handle, and what it returns. -/
structure Answer (ι : Type*) where
  calls : List (ι × Call)
  status : Status
  deriving DecidableEq, Repr

/-- `calloutInitReason`. -/
def calloutInitReason : HttpCalloutInitResult → GoString
  | .clusterNotFound => ascii "cluster_not_found"
  | .missingRequiredHeaders => ascii "missing_headers"
  | .cannotCreateRequest => ascii "cannot_create_request"
  | .duplicateCalloutId => ascii "duplicate_callout_id"
  | .success => ascii "unknown"

/-- `calloutResultLabel`. -/
def calloutResultLabel : HttpCalloutResult → GoString
  | .reset => ascii "reset"
  | .exceedResponseBufferLimit => ascii "buffer_limit"
  | .success => ascii "unknown"

/-- `calloutHeader`: the first value of the name. -/
def calloutHeader (headers : HeaderSlice) (name : GoString) : GoString :=
  match headers.find? fun h => h.1.toString = name with
  | some h => h.2.toString
  | none => []

/-- `calloutStatus`. -/
def calloutStatus (headers : HeaderSlice) : GoString :=
  match headers.find? fun h => h.1.toString = ascii ":status" with
  | some h => h.2.toString
  | none => ascii "unknown"

/-- The loop of `itoa`. -/
def itoaLoop (n : ℕ) (buf : GoString) : GoString :=
  if n = 0 then buf else itoaLoop (n / 10) (UInt8.ofNat (n % 10 + 48) :: buf)

/-- `itoa`. -/
def itoa (n : UInt32) : GoString := if n = 0 then ascii "0" else itoaLoop n.toNat []

/-- A counter that has been defined is incremented. -/
def increment (id : ℕ) (tag : GoString) : List Call :=
  if id ≠ 0 then [.incrementCounter id 1 tag] else []

namespace Filter

variable {ι : Type*} (m : Metrics)

/-- The calls on the handle; a nil handle panics. -/
def act (f : Filter ι) (calls : List Call) (status : Status) : Option (Answer ι) :=
  f.handle.map fun handle => { calls := calls.map fun c => (handle, c), status := status }

/-- The request to the service. -/
def authCallout (path : GoString) : Call :=
  .httpCallout (ascii "auth")
    [(ascii ":method", ascii "GET"), (ascii ":path", path), (ascii ":scheme", ascii "http"),
      (ascii ":authority", ascii "auth")] 500

/-- The reply when the callout cannot start. -/
def unavailable (init : HttpCalloutInitResult) : Call :=
  .sendLocalResponse 503
    (ascii "\x7b\"error\":\"auth unavailable\",\"reason\":\"" ++ calloutInitReason init ++ ascii "\"\x7d")
    (ascii "callout_init_fail")

/-- `OnRequestHeaders`. -/
def onRequestHeaders (f : Filter ι) (headers : HeaderMap) (init : HttpCalloutInitResult) :
    Option (Filter ι × Answer ι) :=
  let f : Filter ι :=
    match headers.getOneInto (ascii ":path") with
    | some pathBuf => { f with path := pathBuf.toString }
    | none => f
  (f.act (authCallout f.path ::
    if init ≠ .success then
      increment m.calloutInitFail (calloutInitReason init) ++ [unavailable init]
    else []) (.requestHeaders .statusStop)).map fun a => (f, a)

/-- The calls of `OnHttpCalloutDone`. -/
def calloutDoneCalls (result : HttpCalloutResult) (headers : HeaderSlice) : List Call :=
  if result ≠ .success then
    increment m.calloutNetFail (calloutResultLabel result) ++
      [.sendLocalResponse 502 (ascii "\x7b\"error\":\"auth unreachable\"\x7d") (ascii "callout_net_fail")]
  else
    let status := calloutStatus headers
    if !hasPrefix status (ascii "2") then
      increment m.calloutUpstreamErr status ++
        [.sendLocalResponse (if status = ascii "401" then 401 else 403)
          (ascii "\x7b\"error\":\"auth denied\",\"upstream_status\":\"" ++ status ++ ascii "\"\x7d")
          (ascii "callout_upstream_err")]
    else
      let user := calloutHeader headers (ascii "x-auth-user")
      (if user ≠ [] then [.setRequestHeader (ascii "x-auth-user") user] else []) ++ [.continueRequest]

/-- The calls of `OnLocalReply`. -/
def localReplyCalls (responseCode : UInt32) (details : UnsafeEnvoyBuffer) (resetImminent : Bool) :
    List Call :=
  increment m.localReplyObserved (itoa responseCode) ++
    if !resetImminent then [.setResponseHeader (ascii "x-error-details") details.toString] else []

/-- The calls of `OnStreamComplete`. -/
def streamCompleteCalls (flags : Option UnsafeEnvoyBuffer) : List Call :=
  match flags with
  | some flagsBuf => if flagsBuf.len > 0 then increment m.responseFlags flagsBuf.toString else []
  | none => []

/-- A callback; those that are not the filter's own are `EmptyHttpFilter`'s. -/
def step (f : Filter ι) : Op → Option (Filter ι × Answer ι)
  | .requestHeaders headers init => f.onRequestHeaders m headers init
  | .requestBody => some (f, ⟨[], .requestBody .statusContinue⟩)
  | .requestTrailers => some (f, ⟨[], .requestTrailers .statusContinue⟩)
  | .responseHeaders => some (f, ⟨[], .responseHeaders .statusContinue⟩)
  | .responseBody => some (f, ⟨[], .responseBody .statusContinue⟩)
  | .responseTrailers => some (f, ⟨[], .responseTrailers .statusContinue⟩)
  | .httpCalloutDone result headers =>
    (f.act (calloutDoneCalls m result headers) .done).map fun a => (f, a)
  | .localReply responseCode details resetImminent =>
    (f.act (localReplyCalls m responseCode details resetImminent)
      (.localReply .statusContinue)).map fun a => (f, a)
  | .streamComplete flags =>
    (f.act (streamCompleteCalls m flags) .done).map fun a => ({ f with handle := none }, a)

end Filter

/-- The callback is `OnRequestHeaders`. -/
def Op.isRequestHeaders : Op → Bool
  | .requestHeaders _ _ => true
  | _ => false

/-- `Factory`, and what the host does: `OnRequestHeaders` comes once, the host keeps the filter for a callout
that has started, and `OnHttpCalloutDone` comes by that reference. -/
def factory (m : Metrics) (ι : Type*) : Code ι (Filter ι) Op (Answer ι) where
  new := {}
  create i f := { f with handle := some i, path := [] }
  step := Filter.step m
  last
    | .streamComplete _ => true
    | _ => false
  keeps
    | .requestHeaders _ init => init = .success
    | _ => false
  late
    | .httpCalloutDone _ _ => true
    | _ => false
  allowed past op := !(op.isRequestHeaders && past.any Op.isRequestHeaders)

section

variable {ι : Type*} {m : Metrics}

/-- The streams whose handles a callback has used. -/
def Answer.on (a : Answer ι) : List ι := a.calls.map (·.1)

/-- The calls for which a callback asks, whatever the handle. -/
def Op.calls (m : Metrics) (path : GoString) : Op → List Call
  | .requestHeaders _ init =>
    Filter.authCallout path ::
      if init ≠ .success then
        increment m.calloutInitFail (calloutInitReason init) ++ [Filter.unavailable init]
      else []
  | .httpCalloutDone result headers => Filter.calloutDoneCalls m result headers
  | .localReply responseCode details resetImminent =>
    Filter.localReplyCalls m responseCode details resetImminent
  | .streamComplete flags => Filter.streamCompleteCalls m flags
  | _ => []

/-- The status of a callback. -/
def Op.status : Op → Status
  | .requestHeaders _ _ => .requestHeaders .statusStop
  | .requestBody => .requestBody .statusContinue
  | .requestTrailers => .requestTrailers .statusContinue
  | .responseHeaders => .responseHeaders .statusContinue
  | .responseBody => .responseBody .statusContinue
  | .responseTrailers => .responseTrailers .statusContinue
  | .localReply _ _ _ => .localReply .statusContinue
  | .httpCalloutDone _ _ | .streamComplete _ => .done

lemma Filter.act_eq_some {f : Filter ι} {calls : List Call} {st : Status} {a : Answer ι}
    (h : f.act calls st = some a) : ∃ i, f.handle = some i ∧ a = ⟨calls.map fun c => (i, c), st⟩ := by
  obtain ⟨i, hi, rfl⟩ := Option.map_eq_some_iff.mp h
  exact ⟨i, hi, rfl⟩

/-- **What a callback does**: it uses the handle of the filter only, and only the last one lets go of it. -/
lemma Filter.step_eq_some {f f' : Filter ι} {op : Op} {a : Answer ι} (h : f.step m op = some (f', a)) :
    f'.handle = (if (factory m ι).last op then none else f.handle) ∧ a.status = op.status ∧
      (∀ c ∈ a.calls, f.handle = some c.1) ∧ ∃ path, a.calls.map (·.2) = op.calls m path := by
  have hact {g : Filter ι} {calls : List Call} {st : Status} {b : Answer ι} (hb : g.act calls st = some b) :
      b.status = st ∧ (∀ c ∈ b.calls, g.handle = some c.1) ∧ b.calls.map (·.2) = calls := by
    obtain ⟨i, hi, rfl⟩ := act_eq_some hb
    simp [hi, Function.comp_def]
  cases op with
  | requestHeaders headers init =>
      rw [step, onRequestHeaders] at h
      obtain ⟨b, hb, heq⟩ := Option.map_eq_some_iff.mp h
      obtain ⟨rfl, rfl⟩ := Prod.mk.inj heq
      obtain ⟨hstatus, hhandle, hcalls⟩ := hact hb
      cases hpath : headers.getOneInto (ascii ":path") with
      | none =>
          simp only [hpath] at hhandle hcalls ⊢
          exact ⟨rfl, hstatus, hhandle, _, hcalls⟩
      | some pathBuf =>
          simp only [hpath] at hhandle hcalls ⊢
          exact ⟨rfl, hstatus, hhandle, _, hcalls⟩
  | httpCalloutDone _ _ | localReply _ _ _ | streamComplete _ =>
      obtain ⟨b, hb, heq⟩ := Option.map_eq_some_iff.mp h
      obtain ⟨rfl, rfl⟩ := Prod.mk.inj heq
      obtain ⟨hstatus, hhandle, hcalls⟩ := hact hb
      exact ⟨rfl, hstatus, hhandle, [], hcalls⟩
  | _ =>
      obtain ⟨rfl, rfl⟩ := Prod.mk.inj (Option.some.inj h)
      exact ⟨rfl, rfl, by simp, [], rfl⟩

lemma factory_tagged : Tagged (factory m ι) (fun f => f.handle) Answer.on where
  new := rfl
  create _ _ := rfl
  step f op f' a hstep := by
    obtain ⟨hhandle, -, hcalls, -⟩ := Filter.step_eq_some hstep
    refine ⟨hhandle, fun j hj => ?_⟩
    obtain ⟨c, hc, rfl⟩ := List.mem_map.mp hj
    exact hcalls c hc
  late op hlate := by cases op <;> first | rfl | cases hlate

/-! ## What is decided -/

/-- What a finished callout decides. -/
def verdict (result : HttpCalloutResult) (headers : HeaderSlice) : Call :=
  if result ≠ .success then
    .sendLocalResponse 502 (ascii "\x7b\"error\":\"auth unreachable\"\x7d") (ascii "callout_net_fail")
  else
    let status := calloutStatus headers
    if hasPrefix status (ascii "2") then .continueRequest
    else
      .sendLocalResponse (if status = ascii "401" then 401 else 403)
        (ascii "\x7b\"error\":\"auth denied\",\"upstream_status\":\"" ++ status ++ ascii "\"\x7d")
        (ascii "callout_upstream_err")

/-- What a callback decides about the request. -/
def Op.decisions : Op → List Call
  | .requestHeaders _ init => if init ≠ .success then [Filter.unavailable init] else []
  | .httpCalloutDone result headers => [verdict result headers]
  | _ => []

lemma decides_increment (id : ℕ) (tag : GoString) : (increment id tag).filter Call.decides = [] := by
  rw [increment]
  split_ifs <;> rfl

lemma filter_calls (path : GoString) (op : Op) : (op.calls m path).filter Call.decides = op.decisions := by
  cases op with
  | requestHeaders headers init =>
      rw [Op.calls, Op.decisions]
      split_ifs with hinit
      · rw [List.filter_cons_of_neg Bool.false_ne_true, List.filter_append, decides_increment]
        rfl
      · rfl
  | httpCalloutDone result headers =>
      rw [Op.calls, Op.decisions, Filter.calloutDoneCalls, verdict]
      split_ifs with hresult
      · rw [List.filter_append, decides_increment]
        rfl
      · dsimp only
        by_cases hstatus : hasPrefix (calloutStatus headers) (ascii "2") = true
        · rw [if_neg (by simp [hstatus]), if_pos hstatus, List.filter_append]
          split_ifs <;> rfl
        · rw [if_pos (by simp [hstatus]), if_neg hstatus, List.filter_append, decides_increment]
          rfl
  | localReply responseCode details resetImminent =>
      change (Filter.localReplyCalls m responseCode details resetImminent).filter Call.decides = []
      rw [Filter.localReplyCalls, List.filter_append, decides_increment]
      cases resetImminent <;> rfl
  | streamComplete flags =>
      cases flags with
      | none => rfl
      | some flagsBuf =>
          change (if flagsBuf.len > 0 then _ else _ : List Call).filter Call.decides = []
          split_ifs
          · exact decides_increment _ _
          · rfl
  | _ => rfl

/-- What a callback decides and returns does not depend on the filter it runs on. -/
lemma decisions_of_step {f f' : Filter ι} {op : Op} {a : Answer ι} (h : f.step m op = some (f', a)) :
    (a.calls.map (·.2)).filter Call.decides = op.decisions ∧ a.status = op.status := by
  obtain ⟨-, hstatus, -, path, hcalls⟩ := Filter.step_eq_some h
  exact ⟨by rw [hcalls, filter_calls], hstatus⟩

lemma Filter.step_isSome (f : Filter ι) (op : Op) (hf : f.handle ≠ none) : (f.step m op).isSome = true := by
  obtain ⟨i, hi⟩ := Option.ne_none_iff_exists'.mp hf
  cases op with
  | requestHeaders headers init =>
      cases hpath : headers.getOneInto (ascii ":path") <;>
        simp [step, onRequestHeaders, act, hi, hpath]
  | _ => simp [step, act, hi]

/-! ## Runs -/

variable [DecidableEq ι] {ls : List (Label ι Op)} {s : System ι (Filter ι) Op (Answer ι)}

/-- The decisions about a stream's request, whoever has made them. -/
def decided (tr : List (Entry ι Op (Answer ι))) (i : ι) : List Call :=
  (tr.flatMap (·.out.calls)).filterMap fun c => if c.1 = i ∧ c.2.decides = true then some c.2 else none

/-- No callout is done after the `OnStreamComplete` of its stream. -/
def InTime (m : Metrics) (tr : List (Entry ι Op (Answer ι))) : Prop :=
  Always (fun pre e => (factory m ι).late e.op = true → ¬ Complete (factory m ι) pre e.stream) tr

/-- **Behind the dispatcher every callback is for its own stream.**  In every run behind the dispatcher of the
ABI, whose `on_http_filter_http_callout_done` drops a callout that is done when the stream is complete, the
callouts are in time, every call is on the handle of the stream that the callback is for, and no callback that
may come panics. -/
theorem dispatched_own (hrun : run (System.dispatch (factory m ι)) {} ls = some s) :
    InTime m s.trace ∧ (∀ e ∈ s.trace, ∀ c ∈ e.out.calls, c.1 = e.stream) ∧
      ∀ i op, s.Expects (factory m ι) i op → (s.dispatch (factory m ι) (.callback i op)).isSome = true := by
  obtain ⟨⟨ls', hls⟩, hintime⟩ := System.dispatch_run factory_tagged hrun
  have hsound := System.sound_run factory_tagged hls
  refine ⟨hintime, fun e he c hc => ?_, fun i op => hsound.dispatch_isSome Filter.step_isSome⟩
  obtain ⟨pre, post, htr⟩ := List.append_of_mem he
  obtain ⟨hon, hearly⟩ := hsound.acts pre e post htr
  refine (hon c.1 (List.mem_map_of_mem hc)).mpr ?_
  cases hlate : (factory m ι).late e.op with
  | false => exact hearly hlate
  | true => exact hintime pre e post htr hlate

/-- Stream 0 is complete before its callout is done, and stream 1 has the filter by then: nothing is decided
for it. -/
theorem dispatched_own_reused : ∃ s : System ℕ (Filter ℕ) Op (Answer ℕ),
    run (System.dispatch (factory { } ℕ)) {} [.create 0 none,
      .callback 0 (.requestHeaders ⟨fun _ => none⟩ .success), .callback 0 (.streamComplete none),
      .create 1 (some 0),
      .callback 0 (.httpCalloutDone .success [(⟨some (ascii ":status")⟩, ⟨some (ascii "200")⟩)])] = some s ∧
    ∀ e ∈ s.trace, ∀ c ∈ e.out.calls, c.1 = e.stream := by
  obtain ⟨s, hrun⟩ : ∃ s : System ℕ (Filter ℕ) Op (Answer ℕ),
      run (System.dispatch (factory { } ℕ)) {} [.create 0 none,
        .callback 0 (.requestHeaders ⟨fun _ => none⟩ .success), .callback 0 (.streamComplete none),
        .create 1 (some 0),
        .callback 0 (.httpCalloutDone .success [(⟨some (ascii ":status")⟩, ⟨some (ascii "200")⟩)])] =
      some s := ⟨_, rfl⟩
  exact ⟨s, hrun, (dispatched_own hrun).2.1⟩

/-- The service lets the request pass. -/
def Op.authorizes : Op → Bool
  | .httpCalloutDone result headers => verdict result headers = .continueRequest
  | _ => false

/-- The body or the trailers of the request arrive. -/
def Op.isData : Op → Bool
  | .requestBody | .requestTrailers => true
  | _ => false

/-- The status lets the request go on. -/
def Status.resumes : Status → Bool
  | .requestHeaders st => !st.stops
  | .requestBody st => st.resumes
  | .requestTrailers st => st.resumes
  | _ => false

/-- The request of the stream goes on to the next filter. -/
def GoesOn (tr : List (Entry ι Op (Answer ι))) (i : ι) : Prop :=
  .continueRequest ∈ decided tr i ∨ ∃ e ∈ entriesOf tr i, e.out.status.resumes = true

/-- The decisions for stream `i` among calls that are all on the handle of stream `j`. -/
lemma filterMap_calls {cs : List (ι × Call)} {j : ι} (h : ∀ c ∈ cs, c.1 = j) (i : ι) :
    (cs.filterMap fun c => if c.1 = i ∧ c.2.decides = true then some c.2 else none) =
      if j = i then (cs.map (·.2)).filter Call.decides else [] := by
  induction cs with
  | nil => simp
  | cons c cs ih =>
      obtain ⟨rfl, hcs⟩ := List.forall_mem_cons.mp h
      rw [List.filterMap_cons, ih hcs, List.map_cons, List.filter_cons]
      split_ifs <;> simp_all

omit [DecidableEq ι] in
lemma continue_iff (op : Op) : .continueRequest ∈ op.decisions ↔ op.authorizes = true := by
  cases op with
  | requestHeaders headers init =>
      rw [Op.decisions]
      split_ifs <;> simp [Filter.unavailable, Op.authorizes]
  | httpCalloutDone result headers =>
      rw [Op.decisions, Op.authorizes, decide_eq_true_eq, List.mem_singleton, eq_comm]
  | _ => simp [Op.decisions, Op.authorizes]

/-- Only the callbacks for the body and the trailers let the request go on by what they return. -/
lemma resumes_iff (op : Op) : op.status.resumes = op.isData := by
  cases op <;> rfl

/-- If all calls are for the stream that makes them, the decisions about a request are its own. -/
lemma decided_eq {tr : List (Entry ι Op (Answer ι))}
    (h : ∀ e ∈ tr, (∀ c ∈ e.out.calls, c.1 = e.stream) ∧
      (e.out.calls.map (·.2)).filter Call.decides = e.op.decisions) (i : ι) :
    decided tr i = (entriesOf tr i).flatMap fun e => e.op.decisions := by
  induction tr with
  | nil => rfl
  | cons e tr ih =>
      obtain ⟨⟨hown, hdecisions⟩, htr⟩ := List.forall_mem_cons.mp h
      have hcons : decided (e :: tr) i =
          (if e.stream = i then e.op.decisions else []) ++ decided tr i := by
        rw [← hdecisions, ← filterMap_calls hown]
        simp [decided]
      rw [hcons, ih htr]
      by_cases hi : e.stream = i
      · have hmem : entriesOf (e :: tr) i = e :: entriesOf tr i := List.filter_cons_of_pos (by simpa using hi)
        rw [if_pos hi, hmem, List.flatMap_cons]
      · have hmem : entriesOf (e :: tr) i = entriesOf tr i := List.filter_cons_of_neg (by simpa using hi)
        rw [if_neg hi, hmem, List.nil_append]

lemma requestHeaders_once {tr : List (Entry ι Op (Answer ι))} (h : Always (System.Recorded (factory m ι)) tr)
    (i : ι) : (entriesOf tr i).countP (fun e => e.op.isRequestHeaders) ≤ 1 := by
  induction tr using List.reverseRecOn with
  | nil => simp [entriesOf]
  | append_singleton tr e ih =>
      obtain ⟨hold, -, hallowed⟩ := always_concat.mp h
      obtain ⟨j, op, out⟩ := e
      rw [System.count_concat tr Op.isRequestHeaders]
      have htr := ih hold
      split_ifs with hi
      · obtain ⟨rfl, hop⟩ := hi
        have hnone : (entriesOf tr i).countP (fun e => e.op.isRequestHeaders) = 0 := by
          cases op with
          | requestHeaders headers init =>
              have hpast : ((entriesOf tr i).map (·.op)).any Op.isRequestHeaders = false := by
                simpa [factory, Op.isRequestHeaders] using hallowed rfl
              exact List.countP_eq_zero.mpr fun e he hop =>
                List.any_eq_false.mp hpast e.op (List.mem_map_of_mem he) hop
          | _ => cases hop
        omega
      · exact htr

omit [DecidableEq ι] in
lemma length_decisions (es : List (Entry ι Op (Answer ι))) :
    (es.flatMap fun e => e.op.decisions).length + es.countP (fun e => (factory m ι).keeps e.op) =
      es.countP (fun e => (factory m ι).late e.op) + es.countP (fun e => e.op.isRequestHeaders) := by
  induction es with
  | nil => rfl
  | cons e es ih =>
      obtain ⟨i, op, out⟩ := e
      have hop : op.decisions.length + (if (factory m ι).keeps op = true then 1 else 0) =
          (if (factory m ι).late op = true then 1 else 0) + if op.isRequestHeaders = true then 1 else 0 := by
        cases op with
        | requestHeaders headers init => cases init <;> rfl
        | _ => rfl
      simp only [List.flatMap_cons, List.length_append, List.countP_cons]
      omega

/-- **In time, every request is decided once, by what its own callbacks were told.**  If no callout is done
late, the decisions about a request are those that its own callbacks imply, at most one, however the streams
share filters; and the request goes on if the service has let it pass, or if it has a body or trailers. -/
theorem decided_once (hrun : run (System.step (factory m ι)) {} ls = some s)
    (hintime : InTime m s.trace) (i : ι) :
    decided s.trace i = (s.entries i).flatMap (fun e => e.op.decisions) ∧
      (decided s.trace i).length ≤ 1 ∧
      (GoesOn s.trace i ↔ ∃ e ∈ s.entries i, e.op.authorizes = true ∨ e.op.isData = true) := by
  have hacts := (System.sound_run factory_tagged hrun).acts
  have hrecorded := System.recorded_run hrun
  have hentries (e : Entry ι Op (Answer ι)) (he : e ∈ s.trace) : (∀ c ∈ e.out.calls, c.1 = e.stream) ∧
      (e.out.calls.map (·.2)).filter Call.decides = e.op.decisions ∧ e.out.status = e.op.status := by
    obtain ⟨pre, post, htr⟩ := List.append_of_mem he
    obtain ⟨hon, hearly⟩ := hacts pre e post htr
    obtain ⟨f, f', hstep⟩ := (hrecorded pre e post htr).1
    refine ⟨fun c hc => (hon c.1 (List.mem_map_of_mem hc)).mpr ?_, decisions_of_step hstep⟩
    cases hlate : (factory m ι).late e.op with
    | false => exact hearly hlate
    | true => exact hintime pre e post htr hlate
  have hdecided := decided_eq (fun e he => ⟨(hentries e he).1, (hentries e he).2.1⟩) i
  refine ⟨hdecided, ?_, ?_⟩
  · have hused := System.usedOnce_run hrun i
    have honce := requestHeaders_once hrecorded i
    have hlength := length_decisions (m := m) (s.entries i)
    rw [hdecided]
    simp only [System.count, System.entries] at hused hlength ⊢
    omega
  · have hcontinue : .continueRequest ∈ decided s.trace i ↔ ∃ e ∈ s.entries i, e.op.authorizes = true := by
      rw [hdecided]
      exact List.mem_flatMap.trans (exists_congr fun e => and_congr_right fun _ => continue_iff e.op)
    have hresumes : (∃ e ∈ s.entries i, e.out.status.resumes = true) ↔
        ∃ e ∈ s.entries i, e.op.isData = true := by
      refine exists_congr fun e => and_congr_right fun he => ?_
      rw [(hentries e (List.mem_of_mem_filter he)).2.2, resumes_iff]
    rw [GoesOn, hcontinue, ← System.entries, hresumes, ← exists_or]
    simp only [← and_or_left]

end

/-- A callout that is done in time and lets the request pass. -/
theorem decided_once_passed : ∃ s : System ℕ (Filter ℕ) Op (Answer ℕ),
    run (System.step (factory { } ℕ)) {} [.create 0 none,
      .callback 0 (.requestHeaders ⟨fun _ => none⟩ .success),
      .callback 0 (.httpCalloutDone .success [(⟨some (ascii ":status")⟩, ⟨some (ascii "200")⟩)])] = some s ∧
    (decided s.trace 0).length ≤ 1 ∧ GoesOn s.trace 0 := by
  obtain ⟨s, hrun, e₁, e₂, htr, hentries, hearly, hauthorizes⟩ : ∃ s : System ℕ (Filter ℕ) Op (Answer ℕ),
      run (System.step (factory { } ℕ)) {} [.create 0 none,
        .callback 0 (.requestHeaders ⟨fun _ => none⟩ .success),
        .callback 0 (.httpCalloutDone .success [(⟨some (ascii ":status")⟩, ⟨some (ascii "200")⟩)])] = some s ∧
      ∃ e₁ e₂, s.trace = [e₁, e₂] ∧ e₂ ∈ s.entries 0 ∧
        ((factory { } ℕ).late e₁.op = false ∧ (factory { } ℕ).last e₁.op = false) ∧
          e₂.op.authorizes = true :=
    ⟨_, rfl, _, _, rfl, by simp [System.entries, entriesOf], ⟨rfl, rfl⟩, by decide⟩
  have hintime : InTime { } s.trace := by
    simp [InTime, htr, Complete, hearly.1, hearly.2]
  obtain ⟨-, hlength, hgoes⟩ := decided_once hrun hintime 0
  exact ⟨s, hrun, hlength, hgoes.mpr ⟨e₂, hentries, .inl hauthorizes⟩⟩

end Luwes.ErrorHandling
