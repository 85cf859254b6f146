import Luwes.Examples.SseTap

/-!
# Routing by model and counting tokens (`sahl/examples/decoder`)

The request handler of the decoder picks the cluster by the model in the request body (`resolveCluster`).
The observer counts the tokens of the response, which may be an event stream or one JSON object, and
measures the time to its first bytes.

Whatever the run of the filter, the tokens it counts are those of the bytes it has been given, the first
slice of each buffer of the host: of the two ends of an event stream, and of the whole of any other response
(`decoderResponse_counts`).
-/

namespace Luwes.Decoder

open LabelledRun Sahl SseTap

/-! ## The clusters -/

/-- `ClusterOpenAI`. -/
def clusterOpenAI : GoString := ascii "openai"

/-- `ClusterAnthropic`. -/
def clusterAnthropic : GoString := ascii "anthropic"

/-- `ClusterDefault`. -/
def clusterDefault : GoString := ascii "default"

/-- The metrics, as the config function has defined them. -/
structure MetricIDs where
  inputTokens : ℕ
  outputTokens : ℕ
  ttftMs : ℕ

/-- `resolveCluster`. -/
def resolveCluster (model : GoString) : GoString :=
  if hasPrefix model (ascii "gpt-") || hasPrefix model (ascii "o1") || hasPrefix model (ascii "o3") then
    clusterOpenAI
  else if hasPrefix model (ascii "claude-") then clusterAnthropic
  else if model = [] then clusterDefault
  else clusterDefault

/-! ## The response -/

/-- `respState`; a `time.Time` is in nanoseconds, with `none` for the zero time. -/
structure RespState where
  cluster : GoString
  sentAt : Option ℤ := none
  firstChunk : Option ℤ := none
  isSSE : Bool := false
  ring : Option HeadTail := none
  jsonBuf : Bytes := []

/-- `clusterFromMeta`, which cannot read the metadata back. -/
def clusterFromMeta : GoString := clusterDefault

/-- `time.Time.Sub`, which returns the smallest or the largest duration where the difference is none. -/
def timeSub (t u : ℤ) : ℤ :=
  if t - u < -9223372036854775808 then -9223372036854775808
  else if 9223372036854775807 < t - u then 9223372036854775807
  else t - u

/-- `uint64(s.firstChunk.Sub(s.sentAt).Milliseconds())`. -/
def milliseconds (firstChunk sentAt : ℤ) : UInt64 :=
  UInt64.ofInt ((timeSub firstChunk sentAt).tdiv 1000000)

/-- `emitTTFT`. -/
def emitTTFT (ids : MetricIDs) (s : RespState) : List UserCall :=
  match s.sentAt, s.firstChunk with
  | some sentAt, some firstChunk =>
    let ms := milliseconds firstChunk sentAt
    if 0 < ms then
      [.recordHistogram ids.ttftMs ms.toNat [s.cluster],
        .setMetadata (ascii "decoder") (ascii "ttft_ms") (.int ms.toInt64.toInt)]
    else []
  | _, _ => []

/-- `emitUsage`. -/
def emitUsage (ids : MetricIDs) (cluster : GoString) (input output : UInt32) : List UserCall :=
  (if 0 < input then
    [.incrementCounter ids.inputTokens input.toNat [cluster],
      .setMetadata (ascii "decoder") (ascii "input_tokens") (.int input.toNat)] else []) ++
  (if 0 < output then
    [.incrementCounter ids.outputTokens output.toNat [cluster],
      .setMetadata (ascii "decoder") (ascii "output_tokens") (.int output.toNat)] else [])

/-- The calls of a helper on the Writer. -/
def askAll (t : Tap RespState) (call : TapCall) (cs : List UserCall) : Option (Tap RespState) :=
  cs.foldlM (fun t c => t.ask call c) t

/-- The first lines of `tapSSEChunk` and of `tapJSONChunk`: the first bytes of the response stop the
clock. -/
def noteFirstChunk (now : ℕ → ℤ) (ids : MetricIDs) (t : Tap RespState) (call : TapCall) (s : RespState) :
    Option (RespState × Tap RespState) :=
  if s.firstChunk = none then
    let s := { s with firstChunk := some (now t.readings) }
    (askAll { t with readings := t.readings + 1 } call (emitTTFT ids s)).map fun t => (s, t)
  else some (s, t)

/-- `tapSSEChunk` where the chunk has bytes. -/
def addSSEChunk (now : ℕ → ℤ) (ids : MetricIDs) (t : Tap RespState) (call : TapCall) (s : RespState) :
    Option (RespState × Tap RespState) :=
  let data := call.chunk.data.getD []
  if 0 < data.length then
    (noteFirstChunk now ids t call s).bind fun (s, t) =>
      (s.ring.bind fun ring => ring.write data).map fun ring => ({ s with ring := some ring }, t)
  else some (s, t)

/-- `tapSSEChunk`. -/
def tapSSEChunk (json : Unmarshal) (now : ℕ → ℤ) (ids : MetricIDs) (t : Tap RespState) (call : TapCall)
    (s : RespState) : Option (Tap RespState) :=
  (addSSEChunk now ids t call s).bind fun (s, t) =>
    if !call.chunk.endStream then some { t with context := some s }
    else s.ring.bind fun ring =>
      let tail := ring.readTail
      let u := extractSSEUsage json ring.readHead tail.1
      askAll { t with context := some { s with ring := some tail.2 } } call
        (emitUsage ids s.cluster u.input u.output)

/-- `tapJSONChunk` where the chunk has bytes. -/
def addJSONChunk (now : ℕ → ℤ) (ids : MetricIDs) (t : Tap RespState) (call : TapCall) (s : RespState) :
    Option (RespState × Tap RespState) :=
  let data := call.chunk.data.getD []
  if 0 < data.length then
    (noteFirstChunk now ids t call s).map fun (s, t) => ({ s with jsonBuf := s.jsonBuf ++ data }, t)
  else some (s, t)

/-- `tapJSONChunk`. -/
def tapJSONChunk (json : Unmarshal) (now : ℕ → ℤ) (ids : MetricIDs) (t : Tap RespState) (call : TapCall)
    (s : RespState) : Option (Tap RespState) :=
  (addJSONChunk now ids t call s).bind fun (s, t) =>
    let t := { t with context := some s }
    if !call.chunk.endStream then some t
    else if s.jsonBuf.length = 0 then some t
    else
      match json.ck s.jsonBuf with
      | some (some u) =>
        askAll t call
          (emitUsage ids s.cluster (u.promptTokens + u.inputTokens) (u.completionTokens + u.outputTokens))
      | _ => some t

/-- `decoderResponse`. -/
def decoderResponse (json : Unmarshal) (now : ℕ → ℤ) (ids : MetricIDs) (t : Tap RespState)
    (call : TapCall) : Option (Tap RespState) :=
  let chunk := call.chunk
  if chunk.data = none ∧ !chunk.endStream then
    let s : RespState := { cluster := clusterFromMeta, sentAt := some (now t.readings) }
    { t with readings := t.readings + 1 }.store call <|
      if contains chunk.contentType (ascii "text/event-stream") then
        { s with ring := some (HeadTail.new (8 * 1024) (64 * 1024)), isSSE := true }
      else s
  else
    (t.load call).bind fun
      | none => some t
      | some s => if s.isSSE then tapSSEChunk json now ids t call s else tapJSONChunk json now ids t call s

/-! ## What is counted -/

/-- The call records the time to the first bytes. -/
inductive IsTTFT (ids : MetricIDs) : UserCall → Prop
  | histogram (ms : ℕ) : IsTTFT ids (.recordHistogram ids.ttftMs ms [clusterDefault])
  | metadata (ms : ℤ) : IsTTFT ids (.setMetadata (ascii "decoder") (ascii "ttft_ms") (.int ms))

/-- What is counted in the end when the response has these bytes. -/
def counted (json : Unmarshal) (ids : MetricIDs) (headers : HeaderMap) (data : Bytes) : List UserCall :=
  if isEventStream headers then
    let u := extractSSEUsage json (data.take (8 * 1024)) (data.rtake (64 * 1024))
    emitUsage ids clusterDefault u.input u.output
  else if data = [] then []
  else
    match json.ck data with
    | some (some u) => emitUsage ids clusterDefault (u.promptTokens + u.inputTokens)
        (u.completionTokens + u.outputTokens)
    | _ => []

/-- The state shows the data. -/
def RespState.Shows (headers : HeaderMap) (data : Bytes) (s : RespState) : Prop :=
  if isEventStream headers then
    s.isSSE = true ∧ ∃ ring, s.ring = some ring ∧ ring.Holds (8 * 1024) (64 * 1024) data false
  else s.isSSE = false ∧ s.jsonBuf = data

/-- Only times have been recorded, and the state shows the data. -/
structure Collecting (ids : MetricIDs) (headers : HeaderMap) (data : Bytes) (s : RespState)
    (t : Tap RespState) : Prop where
  calls : ∀ c ∈ t.calls, IsTTFT ids c
  cluster : s.cluster = clusterDefault
  shows : s.Shows headers data

/-- So it is between two calls. -/
def Tapping (ids : MetricIDs) (headers : HeaderMap) (data : Bytes) (t : Tap RespState) : Prop :=
  ∃ s, t.context = some s ∧ Collecting ids headers data s t

section

variable {json : Unmarshal} {now : ℕ → ℤ} {ids : MetricIDs} {headers : HeaderMap} {data : Bytes}
  {t : Tap RespState} {call : TapCall} {b : List UnsafeEnvoyBuffer × Bool} {s : RespState}

lemma isTTFT_emitTTFT (hs : s.cluster = clusterDefault) : ∀ c ∈ emitTTFT ids s, IsTTFT ids c := by
  intro c hc
  rw [emitTTFT] at hc
  split at hc
  · dsimp only at hc
    split_ifs at hc
    · rcases List.mem_cons.mp hc with rfl | hc
      · exact hs ▸ .histogram _
      · obtain rfl := List.mem_singleton.mp hc
        exact .metadata _
    · simp at hc
  · simp at hc

/-- The first bytes of a response are noted, and nothing else is changed. -/
lemma noteFirstChunk_spec (now : ℕ → ℤ) (hcall : call.hasWriter = true) (hs : s.cluster = clusterDefault)
    (ht : ∀ c ∈ t.calls, IsTTFT ids c) :
    ∃ first t', noteFirstChunk now ids t call s = some ({ s with firstChunk := first }, t') ∧
      ∀ c ∈ t'.calls, IsTTFT ids c := by
  simp only [noteFirstChunk, askAll, Tap.foldlM_ask _ hcall, Option.map_some]
  split_ifs
  · refine ⟨_, _, rfl, fun c hc => ?_⟩
    rcases List.mem_append.mp hc with hc | hc
    · exact ht c hc
    · exact isTTFT_emitTTFT (by exact hs) c hc
  · exact ⟨_, _, rfl, ht⟩

lemma addSSEChunk_spec (now : ℕ → ℤ) (hcall : call.hasWriter = true) (hsse : isEventStream headers)
    (h : Collecting ids headers data s t) :
    ∃ s' t', addSSEChunk now ids t call s = some (s', t') ∧
      Collecting ids headers (data ++ call.chunk.data.getD []) s' t' := by
  obtain ⟨ht, hs, hshows⟩ := h
  rw [RespState.Shows, if_pos hsse] at hshows
  obtain ⟨hisSSE, ring, hring, hholds⟩ := hshows
  generalize hp : call.chunk.data.getD [] = p
  simp only [addSSEChunk, hp]
  split_ifs with hlen
  · obtain ⟨first, t', hnote, hcalls⟩ := noteFirstChunk_spec now hcall hs ht
    obtain ⟨ring', hwrite, hholds⟩ := hholds.write p
    simp only [hnote, Option.bind_some, hring, hwrite, Option.map_some]
    refine ⟨_, _, rfl, hcalls, hs, ?_⟩
    rw [RespState.Shows, if_pos hsse]
    exact ⟨hisSSE, ring', rfl, hholds⟩
  · refine ⟨_, _, rfl, ht, hs, ?_⟩
    obtain rfl : p = [] := List.eq_nil_of_length_eq_zero (by omega)
    rw [List.append_nil, RespState.Shows, if_pos hsse]
    exact ⟨hisSSE, ring, hring, hholds⟩

lemma addJSONChunk_spec (now : ℕ → ℤ) (hcall : call.hasWriter = true) (hsse : ¬isEventStream headers)
    (h : Collecting ids headers data s t) :
    ∃ s' t', addJSONChunk now ids t call s = some (s', t') ∧
      Collecting ids headers (data ++ call.chunk.data.getD []) s' t' := by
  obtain ⟨ht, hs, hshows⟩ := h
  rw [RespState.Shows, if_neg hsse] at hshows
  obtain ⟨hisSSE, hbuf⟩ := hshows
  generalize hp : call.chunk.data.getD [] = p
  simp only [addJSONChunk, hp]
  split_ifs with hlen
  · obtain ⟨first, t', hnote, hcalls⟩ := noteFirstChunk_spec now hcall hs ht
    simp only [hnote, Option.map_some]
    refine ⟨_, _, rfl, hcalls, hs, ?_⟩
    rw [RespState.Shows, if_neg hsse]
    exact ⟨hisSSE, congrArg (· ++ p) hbuf⟩
  · refine ⟨_, _, rfl, ht, hs, ?_⟩
    obtain rfl : p = [] := List.eq_nil_of_length_eq_zero (by omega)
    rw [List.append_nil, RespState.Shows, if_neg hsse]
    exact ⟨hisSSE, hbuf⟩

lemma decoderResponse_headers (json : Unmarshal) (now : ℕ → ℤ) (hcall : call.Sound headers)
    (hdata : call.chunk.data = none) (hopen : call.chunk.endStream = false)
    (ht : ∀ c ∈ t.calls, IsTTFT ids c) :
    ∃ t', decoderResponse json now ids t call = some t' ∧ Tapping ids headers [] t' := by
  have htype : contains call.chunk.contentType (ascii "text/event-stream") = isEventStream headers :=
    congrArg (contains · _) hcall.taken.contentType
  rw [decoderResponse, if_pos (by simp [hdata, hopen]), Tap.store, if_pos hcall.context]
  simp only [htype]
  by_cases hsse : isEventStream headers
  · rw [if_pos hsse]
    refine ⟨_, rfl, _, rfl, ht, rfl, ?_⟩
    rw [RespState.Shows, if_pos hsse]
    exact ⟨rfl, _, rfl, HeadTail.holds_new (by decide)⟩
  · rw [if_neg hsse]
    refine ⟨_, rfl, _, rfl, ht, rfl, ?_⟩
    rw [RespState.Shows, if_neg hsse]
    exact ⟨rfl, rfl⟩

lemma decoderResponse_body (json : Unmarshal) (now : ℕ → ℤ) (h : Tapping ids headers data t)
    (hcall : TapCall.Carries headers b call) (hb : b.2 = false) :
    ∃ t', decoderResponse json now ids t call = some t' ∧ Tapping ids headers (collect data b) t' := by
  obtain ⟨s, hs, hcollecting⟩ := h
  have hopen : call.chunk.endStream = false := hcall.endStream.trans hb
  by_cases hnil : bodyData b.1 = none
  · rw [collect, if_pos ⟨hnil, hb⟩]
    exact decoderResponse_headers json now hcall.toSound (hcall.data.trans hnil) hopen hcollecting.calls
  rw [decoderResponse, if_neg (by simp [hcall.data, hnil]), Tap.load, if_pos hcall.context, collect,
    if_neg (by simp [hnil]), hs, Option.bind_some, ← hcall.data]
  dsimp only
  by_cases hsse : isEventStream headers
  · obtain ⟨s', t', hadd, hcollecting'⟩ := addSSEChunk_spec now hcall.hasWriter hsse hcollecting
    have hshows := hcollecting.shows
    rw [RespState.Shows, if_pos hsse] at hshows
    rw [if_pos hshows.1, tapSSEChunk, hadd, Option.bind_some]
    dsimp only
    rw [if_pos (by simp [hopen])]
    exact ⟨_, rfl, s', rfl, hcollecting'.calls, hcollecting'.cluster, hcollecting'.shows⟩
  · obtain ⟨s', t', hadd, hcollecting'⟩ := addJSONChunk_spec now hcall.hasWriter hsse hcollecting
    have hshows := hcollecting.shows
    rw [RespState.Shows, if_neg hsse] at hshows
    rw [if_neg (by simp [hshows.1]), tapJSONChunk, hadd, Option.bind_some]
    dsimp only
    rw [if_pos (by simp [hopen])]
    exact ⟨_, rfl, s', rfl, hcollecting'.calls, hcollecting'.cluster, hcollecting'.shows⟩

lemma decoderResponse_end (json : Unmarshal) (now : ℕ → ℤ) (h : Tapping ids headers data t)
    (hcall : TapCall.Carries headers b call) (hb : b.2 = true) :
    ∃ t', decoderResponse json now ids t call = some t' ∧
      ∃ times, (∀ c ∈ times, IsTTFT ids c) ∧ t'.calls = times ++ counted json ids headers (collect data b) := by
  obtain ⟨s, hs, hcollecting⟩ := h
  have hlast : call.chunk.endStream = true := hcall.endStream.trans hb
  rw [decoderResponse, if_neg (by simp [hlast]), Tap.load, if_pos hcall.context, collect,
    if_neg (by simp [hb]), hs, Option.bind_some, ← hcall.data, counted]
  dsimp only
  by_cases hsse : isEventStream headers
  · obtain ⟨s', t', hadd, hcalls, hcluster, hshows'⟩ := addSSEChunk_spec now hcall.hasWriter hsse hcollecting
    have hshows := hcollecting.shows
    rw [RespState.Shows, if_pos hsse] at hshows hshows'
    obtain ⟨-, ring, hring, hholds⟩ := hshows'
    have htail : ring.readTail.1 = (data ++ call.chunk.data.getD []).rtake (64 * 1024) :=
      hholds.wellFormed.bytes.1.trans (hholds.content rfl)
    rw [if_pos hshows.1, tapSSEChunk, hadd, Option.bind_some]
    dsimp only
    rw [if_neg (by simp [hlast]), hring, Option.bind_some, askAll, Tap.foldlM_ask _ hcall.hasWriter,
      if_pos hsse, hholds.slab.shows, htail, hcluster]
    exact ⟨_, rfl, _, hcalls, rfl⟩
  · obtain ⟨s', t', hadd, hcalls, hcluster, hshows'⟩ := addJSONChunk_spec now hcall.hasWriter hsse hcollecting
    have hshows := hcollecting.shows
    rw [RespState.Shows, if_neg hsse] at hshows hshows'
    rw [if_neg (by simp [hshows.1]), tapJSONChunk, hadd, Option.bind_some]
    dsimp only
    rw [if_neg (by simp [hlast]), hshows'.2, if_neg hsse]
    by_cases hempty : data ++ call.chunk.data.getD [] = []
    · rw [if_pos (by simp [hempty]), if_pos hempty]
      exact ⟨_, rfl, _, hcalls, (List.append_nil _).symm⟩
    · rw [if_neg (by simpa using hempty), if_neg hempty]
      cases json.ck (data ++ call.chunk.data.getD []) with
      | none => exact ⟨_, rfl, _, hcalls, (List.append_nil _).symm⟩
      | some usage =>
          cases usage with
          | none => exact ⟨_, rfl, _, hcalls, (List.append_nil _).symm⟩
          | some u =>
              refine ⟨_, (Tap.foldlM_ask _ hcall.hasWriter _).trans rfl, _, hcalls, ?_⟩
              rw [hcluster]

end

/-- **What is counted.**  In every run of a filter with this observer in which the request comes before
the response and the response comes to its end, the observer first records times, and then counts the
tokens of what it has been given since a call looked like the one for the headers, the first slice of each
buffer: those in the two ends of an event stream, and those of the whole of any other response.  All of them
go to the default cluster, whatever `decoderRequest` has chosen. -/
theorem decoderResponse_counts (json : Unmarshal) (now : ℕ → ℤ) (ids : MetricIDs) {r : ℕ} {d : FilterDef}
    {ls : List State.Label} {s : State} (hd : d.responseFn.isSome = true)
    (hrun : run State.step (State.new r d) ls = some s)
    (hafter : Along State.step State.AfterRequest (State.new r d) ls) (headers : HeaderMap)
    (bodies : List (List UnsafeEnvoyBuffer × Bool)) (last : List UnsafeEnvoyBuffer)
    (hopen : ∀ b ∈ bodies, b.2 = false)
    (hresponse : ls.filterMap State.Label.responseCall = responseOf headers (bodies ++ [(last, true)])) :
    ∃ t times, run (decoderResponse json now ids) {} (tapCalls s.trace) = some t ∧
      (∀ c ∈ times, IsTTFT ids c) ∧
      t.calls = times ++ counted json ids headers (collected (bodies ++ [(last, true)])) := by
  obtain ⟨t, ht, times, htimes, hcalls⟩ := observer_rule (f := decoderResponse json now ids)
    (I := Tapping ids headers)
    (Q := fun data t => ∃ times, (∀ c ∈ times, IsTTFT ids c) ∧
      t.calls = times ++ counted json ids headers data)
    (fun call hcall hdata hopen => decoderResponse_headers json now hcall hdata hopen (by simp))
    (fun data t b call h hcall hb => decoderResponse_body json now h hcall hb)
    (fun data t b call h hcall hb => decoderResponse_end json now h hcall hb) hd hrun hafter hopen
    hresponse
  exact ⟨t, times, ht, htimes, hcalls⟩

/-- What is counted of a stream of two messages. -/
theorem decoderResponse_counts_sseResponse :
    ∃ s t times, run State.step (State.new 0 tapFilter) sseResponse = some s ∧
      run (decoderResponse twoMessages (fun n => 5000000 * n) ⟨0, 1, 2⟩) {} (tapCalls s.trace) = some t ∧
      t.calls = times ++ counted twoMessages ⟨0, 1, 2⟩ sseHeaders (startLines ++ deltaLines) := by
  obtain ⟨s, hrun⟩ : ∃ s, run State.step (State.new 0 tapFilter) sseResponse = some s := ⟨_, rfl⟩
  obtain ⟨t, times, ht, -, hcalls⟩ := decoderResponse_counts twoMessages (fun n => 5000000 * n) ⟨0, 1, 2⟩
    rfl hrun (by decide) sseHeaders [([⟨some startLines⟩], false)] [⟨some deltaLines⟩] (by simp) rfl
  exact ⟨s, t, times, hrun, ht, hcalls⟩

end Luwes.Decoder
