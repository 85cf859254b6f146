import Luwes.Buffer.HeadTail
import Luwes.Examples.ResponseTap
import Luwes.Examples.SseUsage

/-!
# Tapping an event stream (`sahl/examples/sse-tap`)

`tapResponse` keeps the first 8 KB and the last 64 KB of a response that is an event stream, and at its
end emits the token counters and sets metadata.  Whatever the run of the filter, what it emits is decided
by the bytes that it is given, and not by what else happens on the stream (`tapResponse_reports`).  These are
the first slices of the host's buffers: where they lie does not matter, but what is in a second slice is not
reported.
-/

namespace Luwes.SseTap

open LabelledRun Sahl

/-- `ringState`. -/
structure RingState where
  ring : Option HeadTail := none
  skip : Bool := false

/-- The counters, as `configFn` has defined them. -/
structure MetricIDs where
  inputTokensID : ℕ
  outputTokensID : ℕ

/-- What is asked of the Writer for a usage. -/
def report (ids : MetricIDs) (u : TokenUsage) : List UserCall :=
  (if 0 < u.input then [.incrementCounter ids.inputTokensID u.input.toNat []] else []) ++
  (if 0 < u.output then [.incrementCounter ids.outputTokensID u.output.toNat []] else []) ++
  [.setMetadata (ascii "sse_tap") (ascii "input_tokens") (.int u.input.toNat),
    .setMetadata (ascii "sse_tap") (ascii "output_tokens") (.int u.output.toNat)]

/-- `s.ring.Write(p)` for a `p` that is not empty. -/
def RingState.write (s : RingState) (p : Bytes) : Option RingState :=
  if 0 < p.length then (s.ring.bind fun ring => ring.write p).map fun ring => { s with ring := some ring }
  else some s

/-- `tapResponse`.  The context slot holds a pointer, through which the ring state is changed. -/
def tapResponse (json : Unmarshal) (ids : MetricIDs) (t : Tap RingState) (call : TapCall) :
    Option (Tap RingState) :=
  let chunk := call.chunk
  if chunk.data = none ∧ !chunk.endStream then
    -- The first call: the response headers.
    t.store call <|
      if !contains chunk.contentType (ascii "text/event-stream") then { skip := true }
      else { ring := some (HeadTail.new (8 * 1024) (64 * 1024)) }
  else
    (t.load call).bind fun
      | none => some t
      | some s =>
        if s.skip then some t
        else (s.write (chunk.data.getD [])).bind fun s =>
          if !chunk.endStream then some { t with context := some s }
          else s.ring.bind fun ring =>
            let tail := ring.readTail
            let u := extractUsage json ring.readHead tail.1
            (report ids u).foldlM (fun t c => t.ask call c)
              { t with context := some { s with ring := some tail.2 } }

/-- The content type of the response. -/
def contentTypeOf (headers : HeaderMap) : GoString :=
  ((nonEmptyHeader headers "content-type").map fun buf => buf.toString).getD []

/-- The response is an event stream. -/
def isEventStream (headers : HeaderMap) : Bool :=
  contains (contentTypeOf headers) (ascii "text/event-stream")

/-- What is asked for in the end when the response has these bytes. -/
def reported (json : Unmarshal) (ids : MetricIDs) (headers : HeaderMap) (data : Bytes) : List UserCall :=
  if isEventStream headers then
    report ids (extractUsage json (data.take (8 * 1024)) (data.rtake (64 * 1024)))
  else []

/-- Between two calls nothing has been asked of the Writer, and the ring shows the data. -/
structure Tapping (headers : HeaderMap) (data : Bytes) (t : Tap RingState) : Prop where
  calls : t.calls = []
  context : ∃ s, t.context = some s ∧
    if isEventStream headers then
      s.skip = false ∧ ∃ ring, s.ring = some ring ∧ ring.Holds (8 * 1024) (64 * 1024) data false
    else s.skip = true

section

variable {json : Unmarshal} {ids : MetricIDs} {headers : HeaderMap} {data : Bytes} {t : Tap RingState}
  {call : TapCall} {b : List UnsafeEnvoyBuffer × Bool}

lemma RingState.write_holds {s : RingState} {ring : HeadTail} (hring : s.ring = some ring)
    (h : ring.Holds (8 * 1024) (64 * 1024) data false) (p : Bytes) :
    ∃ ring', s.write p = some { s with ring := some ring' } ∧
      ring'.Holds (8 * 1024) (64 * 1024) (data ++ p) false := by
  rw [RingState.write]
  split_ifs with hp
  · obtain ⟨ring', hwrite, hholds⟩ := h.write p
    exact ⟨ring', by simp [hring, hwrite], hholds⟩
  · obtain rfl : p = [] := List.eq_nil_of_length_eq_zero (by omega)
    exact ⟨ring, by rw [← hring], by simpa using h⟩

lemma tapResponse_headers (hcall : call.Sound headers) (hdata : call.chunk.data = none)
    (hopen : call.chunk.endStream = false) (ht : t.calls = []) :
    ∃ t', tapResponse json ids t call = some t' ∧ Tapping headers [] t' := by
  have htype : call.chunk.contentType = contentTypeOf headers := hcall.taken.contentType
  rw [tapResponse, if_pos (by simp [hdata, hopen]), Tap.store, if_pos hcall.context]
  refine ⟨_, rfl, ht, _, rfl, ?_⟩
  rw [htype]
  by_cases hsse : isEventStream headers
  · rw [if_pos hsse, if_neg (by simpa [isEventStream] using hsse)]
    exact ⟨rfl, _, rfl, HeadTail.holds_new (by decide)⟩
  · rw [if_neg hsse, if_pos (by simpa [isEventStream] using hsse)]

lemma tapResponse_body (h : Tapping headers data t) (hcall : TapCall.Carries headers b call)
    (hb : b.2 = false) :
    ∃ t', tapResponse json ids t call = some t' ∧ Tapping headers (collect data b) t' := by
  have hopen : call.chunk.endStream = false := hcall.endStream.trans hb
  by_cases hnil : bodyData b.1 = none
  · rw [collect, if_pos ⟨hnil, hb⟩]
    exact tapResponse_headers hcall.toSound (hcall.data.trans hnil) hopen h.calls
  rw [tapResponse, if_neg (by simp [hcall.data, hnil]), Tap.load, if_pos hcall.context, collect,
    if_neg (by simp [hnil])]
  obtain ⟨s, hs, hstate⟩ := h.context
  rw [hs, Option.bind_some]
  dsimp only
  by_cases hsse : isEventStream headers
  · rw [if_pos hsse] at hstate
    obtain ⟨hskip, ring, hring, hholds⟩ := hstate
    obtain ⟨ring', hwrite, hholds⟩ := RingState.write_holds hring hholds ((bodyData b.1).getD [])
    rw [if_neg (by simp [hskip]), hcall.data, hwrite, Option.bind_some, if_pos (by simp [hopen])]
    exact ⟨_, rfl, h.calls, _, rfl, by rw [if_pos hsse]; exact ⟨hskip, ring', rfl, hholds⟩⟩
  · rw [if_neg hsse] at hstate
    rw [if_pos hstate]
    exact ⟨_, rfl, h.calls, s, hs, by rw [if_neg hsse]; exact hstate⟩

lemma tapResponse_end (h : Tapping headers data t) (hcall : TapCall.Carries headers b call)
    (hb : b.2 = true) : ∃ t', tapResponse json ids t call = some t' ∧
      t'.calls = reported json ids headers (collect data b) := by
  have hlast : call.chunk.endStream = true := hcall.endStream.trans hb
  rw [tapResponse, if_neg (by simp [hlast]), Tap.load, if_pos hcall.context, collect,
    if_neg (by simp [hb]), reported]
  obtain ⟨s, hs, hstate⟩ := h.context
  rw [hs, Option.bind_some]
  dsimp only
  by_cases hsse : isEventStream headers
  · rw [if_pos hsse] at hstate ⊢
    obtain ⟨hskip, ring, hring, hholds⟩ := hstate
    obtain ⟨ring', hwrite, hholds⟩ := RingState.write_holds hring hholds ((bodyData b.1).getD [])
    rw [if_neg (by simp [hskip]), hcall.data, hwrite, Option.bind_some, if_neg (by simp [hlast]),
      Option.bind_some, Tap.foldlM_ask _ hcall.hasWriter]
    have htail : ring'.readTail.1 = (data ++ (bodyData b.1).getD []).rtake (64 * 1024) :=
      hholds.wellFormed.bytes.1.trans (hholds.content rfl)
    refine ⟨_, rfl, ?_⟩
    rw [h.calls, List.nil_append, hholds.slab.shows, htail]
  · rw [if_neg hsse] at hstate ⊢
    rw [if_pos hstate]
    exact ⟨_, rfl, h.calls⟩

end

/-- **What is reported.**  In every run of a filter with this observer in which the request comes before
the response and the response comes to its end, the observer asks for nothing if the response is no event
stream, and otherwise it reports the usage in the first 8 KB and the last 64 KB of what it has been given
since a call looked like the one for the headers.  That is the first slice of every buffer, if none starts
with one of length 0. -/
theorem tapResponse_reports (json : Unmarshal) (ids : MetricIDs) {r : ℕ} {d : FilterDef}
    {ls : List State.Label} {s : State} (hd : d.responseFn.isSome = true)
    (hrun : run State.step (State.new r d) ls = some s)
    (hafter : Along State.step State.AfterRequest (State.new r d) ls) (headers : HeaderMap)
    (bodies : List (List UnsafeEnvoyBuffer × Bool)) (last : List UnsafeEnvoyBuffer)
    (hopen : ∀ b ∈ bodies, b.2 = false)
    (hresponse : ls.filterMap State.Label.responseCall = responseOf headers (bodies ++ [(last, true)])) :
    let bodies := bodies ++ [(last, true)]
    ∃ t, run (tapResponse json ids) {} (tapCalls s.trace) = some t ∧
      t.calls = reported json ids headers (collected bodies) ∧
      ((∀ b ∈ bodies, StartsWithBytes b.1) →
        collected bodies = bodies.flatMap fun b => (bodyData b.1).getD []) := by
  obtain ⟨t, ht, hcalls⟩ := observer_rule (f := tapResponse json ids) (I := Tapping headers)
    (Q := fun data t => t.calls = reported json ids headers data)
    (fun call hcall hdata hopen => tapResponse_headers hcall hdata hopen rfl)
    (fun data t b call h hcall hb => tapResponse_body h hcall hb)
    (fun data t b call h hcall hb => tapResponse_end h hcall hb) hd hrun hafter hopen hresponse
  exact ⟨t, ht, hcalls, collected_eq⟩

/-- The headers of an event stream. -/
def sseHeaders : HeaderMap where
  getOneInto key := if key = ascii "content-type" then some ⟨some (ascii "text/event-stream")⟩ else none

/-- An event stream of two buffers. -/
def sseResponse : List State.Label :=
  [.requestHeaders true, .worker {}, .responseHeaders sseHeaders, .worker {},
    .responseBody [⟨some startLines⟩] false, .worker {}, .responseBody [⟨some deltaLines⟩] true, .worker {}]

/-- What is reported of it. -/
theorem tapResponse_reports_sseResponse :
    ∃ s t, run State.step (State.new 0 tapFilter) sseResponse = some s ∧
      run (tapResponse twoMessages ⟨0, 1⟩) {} (tapCalls s.trace) = some t ∧
      t.calls = reported twoMessages ⟨0, 1⟩ sseHeaders (startLines ++ deltaLines) := by
  obtain ⟨s, hrun⟩ : ∃ s, run State.step (State.new 0 tapFilter) sseResponse = some s := ⟨_, rfl⟩
  obtain ⟨t, ht, hcalls, -⟩ := tapResponse_reports twoMessages ⟨0, 1⟩ rfl hrun (by decide)
    sseHeaders [([⟨some startLines⟩], false)] [⟨some deltaLines⟩] (by simp) rfl
  exact ⟨s, t, hrun, ht, hcalls⟩

end Luwes.SseTap
