import Luwes.Buffer.HeadTail
import Luwes.Examples.Decoder
import Luwes.Lib.PooledStreams

/-!
# The LLM proxy (`examples/llm-proxy`)

The raw filter routes a request by the model in its body and counts the tokens of an event stream.  It looks
for the model in the first chunk that `OnRequestBody` is given at the end of the request, and in no other.
Its `Filter` objects, with a ring buffer each, come from the factory's pool and go back to it at the end of
the stream.

`Machine` is what a stream with a filter of its own does: instead of the ring it has the bytes of the
response.  In every run of many streams on one pool each stream does the same (`filters_isolated`), so what
is counted for a stream depends on its own callbacks alone (`filters_count`).
-/

namespace Luwes.LlmProxy

open LabelledRun PooledStreams SseTap

/-! ## Routing (`scan.go`) -/

/-- `routeEntry`. -/
structure RouteEntry where
  pre : Bytes
  cluster : GoString

/-- `clusterRoutes`. -/
def clusterRoutes : List RouteEntry :=
  [⟨ascii "gpt-", ascii "openai"⟩, ⟨ascii "o1", ascii "openai"⟩, ⟨ascii "o3", ascii "openai"⟩,
    ⟨ascii "claude-", ascii "anthropic"⟩]

/-- `clusterDefault`. -/
def clusterDefault : GoString := ascii "default"

/-- The loop of `resolveCluster`: the first match wins. -/
def resolveLoop (model : GoString) : List RouteEntry → GoString
  | [] => clusterDefault
  | e :: es => if hasPrefix model e.pre then e.cluster else resolveLoop model es

/-- `resolveCluster`. -/
def resolveCluster (model : GoString) : GoString := resolveLoop model clusterRoutes

/-- The table routes as the switch of the decoder does. -/
theorem resolveCluster_eq (model : GoString) : resolveCluster model = Decoder.resolveCluster model := by
  simp only [resolveCluster, clusterRoutes, resolveLoop, Decoder.resolveCluster]
  split_ifs <;> simp_all [Decoder.clusterOpenAI, Decoder.clusterAnthropic, Decoder.clusterDefault,
    clusterDefault]

/-! ## The filter (`llm_proxy.go`) -/

/-- The metrics of a `Factory`; a metric that could not be defined is 0. -/
structure Metrics where
  inputTokens : ℕ
  outputTokens : ℕ
  requestsTotal : ℕ

/-- A call on the handle of a stream. -/
inductive Effect
  | setRequestHeader (key value : GoString)
  | clearRouteCache
  | incrementCounterValue (id n : ℕ) (tag : GoString)
  deriving DecidableEq, Repr

/-- `Filter`; the handle is named by its stream. -/
structure Filter where
  handle : Option ℕ := none
  ring : HeadTail
  cluster : GoString := []
  skipSSE : Bool := false

/-- A callback of the filter. -/
inductive Callback
  | requestHeaders
  | requestBody (body : List UnsafeEnvoyBuffer) (endStream : Bool)
  | responseHeaders (headers : HeaderMap)
  | responseBody (body : List UnsafeEnvoyBuffer) (endStream : Bool)
  | streamComplete

/-- `modelFromBody`, with `gjson.Get(s, "model").Str` for a body that is not empty. -/
def modelFromBody (gjson : Bytes → GoString) (body : Bytes) : GoString :=
  if body.length = 0 then [] else gjson body

/-- What a callback calls on the handle `f.handle`; a nil handle panics. -/
def Filter.on (f : Filter) (effects : List Effect) : Option (List (ℕ × Effect)) :=
  if effects.isEmpty then some [] else f.handle.map fun h => effects.map (h, ·)

/-- `OnRequestBody` at the end of the stream. -/
def routing (gjson : Bytes → GoString) (m : Metrics) (body : List UnsafeEnvoyBuffer) :
    GoString × List Effect :=
  let bodyBuf := (body.head?.bind (·.toUnsafeBytes)).getD []
  let cluster := resolveCluster (modelFromBody gjson bodyBuf)
  (cluster, [.setRequestHeader (ascii "x-cluster") cluster, .clearRouteCache] ++
    if m.requestsTotal ≠ 0 then [.incrementCounterValue m.requestsTotal 1 cluster] else [])

/-- What `OnResponseBody` counts at the end of the stream. -/
def counters (m : Metrics) (cluster : GoString) (u : TokenUsage) : List Effect :=
  (if 0 < u.input ∧ m.inputTokens ≠ 0 then [.incrementCounterValue m.inputTokens u.input.toNat cluster]
    else []) ++
  (if 0 < u.output ∧ m.outputTokens ≠ 0 then [.incrementCounterValue m.outputTokens u.output.toNat cluster]
    else [])

/-- The test of `OnResponseHeaders`: the response is no event stream. -/
def notSSE (headers : HeaderMap) : Bool :=
  match headers.getOneInto (ascii "content-type") with
  | some buf => !contains buf.toString (ascii "text/event-stream")
  | none => true

/-- The loop of `OnResponseBody`. -/
def writeChunks (ring : HeadTail) : List UnsafeEnvoyBuffer → Option HeadTail
  | [] => some ring
  | c :: cs =>
    if 0 < c.len then (ring.write (c.toUnsafeBytes.getD [])).bind fun ring => writeChunks ring cs
    else writeChunks ring cs

/-- The callbacks of `Filter`, with what they call on which handle. -/
def Filter.step (json : Unmarshal) (gjson : Bytes → GoString) (m : Metrics) (f : Filter) :
    Callback → Option (Filter × List (ℕ × Effect))
  | .requestHeaders => some (f, [])
  | .requestBody body endStream =>
    if !endStream then some (f, [])
    else
      let r := routing gjson m body
      (f.on r.2).map fun effects => ({ f with cluster := r.1 }, effects)
  | .responseHeaders headers => some ({ f with skipSSE := f.skipSSE || notSSE headers }, [])
  | .responseBody body endStream =>
    if f.skipSSE then some (f, [])
    else
      (writeChunks f.ring body).bind fun ring =>
        if !endStream then some ({ f with ring := ring }, [])
        else
          let tail := ring.readTail
          let usage := extractUsage json ring.readHead tail.1
          (f.on (counters m f.cluster usage)).map fun effects =>
            ({ f with ring := tail.2.reset }, effects)
  | .streamComplete => some ({ f with handle := none }, [])

/-- `Factory`: `pool.New`, `Create`, and `OnStreamComplete`, after which the filter is in the pool. -/
def factory (json : Unmarshal) (gjson : Bytes → GoString) (m : Metrics) :
    Code ℕ Filter Callback (List (ℕ × Effect)) where
  new := { ring := HeadTail.new (8 * 1024) (64 * 1024) }
  create i f := { handle := some i, cluster := clusterDefault, skipSSE := false, ring := f.ring.reset }
  step := Filter.step json gjson m
  last
    | .streamComplete => true
    | _ => false

/-! ## A filter of one's own -/

/-- A stream: the bytes of the response so far, the cluster, and whether the response is left alone. -/
structure Stream where
  handle : ℕ
  data : Bytes := []
  cluster : GoString := clusterDefault
  skipSSE : Bool := false

/-- What the stream does. -/
def Stream.step (json : Unmarshal) (gjson : Bytes → GoString) (m : Metrics) (b : Stream) :
    Callback → Stream × List Effect
  | .requestHeaders | .streamComplete => (b, [])
  | .requestBody body endStream =>
    if endStream then ({ b with cluster := (routing gjson m body).1 }, (routing gjson m body).2) else (b, [])
  | .responseHeaders headers => ({ b with skipSSE := b.skipSSE || notSSE headers }, [])
  | .responseBody body endStream =>
    let data := b.data ++ chunkBytes body
    if b.skipSSE then (b, [])
    else if endStream then
      ({ b with data := [] },
        counters m b.cluster (extractUsage json (data.take (8 * 1024)) (data.rtake (64 * 1024))))
    else ({ b with data := data }, [])

/-- All of it on the handle of the stream. -/
def alone (json : Unmarshal) (gjson : Bytes → GoString) (m : Metrics) :
    Machine ℕ Stream Callback (List (ℕ × Effect)) where
  init i := { handle := i }
  step b op := some ((b.step json gjson m op).1, (b.step json gjson m op).2.map (b.handle, ·))

/-- The filter has what the stream has, with the ring for the bytes. -/
structure Shows (i : ℕ) (f : Filter) (b : Stream) : Prop where
  handle : f.handle = some i
  stream : b.handle = i
  cluster : f.cluster = b.cluster
  skipSSE : f.skipSSE = b.skipSSE
  ring : f.ring.Holds (8 * 1024) (64 * 1024) b.data false

/-- What is known of the ring of a filter in the pool. -/
def Pooled (f : Filter) : Prop := ∃ data tailed, f.ring.Holds (8 * 1024) (64 * 1024) data tailed

section

variable {json : Unmarshal} {gjson : Bytes → GoString} {m : Metrics} {data : Bytes} {tailed : Bool}
  {ring : HeadTail} {i : ℕ} {f : Filter} {b : Stream}

lemma writeChunks_holds (h : ring.Holds (8 * 1024) (64 * 1024) data tailed) (cs : List UnsafeEnvoyBuffer) :
    ∃ ring', writeChunks ring cs = some ring' ∧
      ring'.Holds (8 * 1024) (64 * 1024) (data ++ chunkBytes cs) tailed := by
  induction cs generalizing ring data with
  | nil => exact ⟨ring, rfl, by simpa using h⟩
  | cons c cs ih =>
      rw [writeChunks, chunkBytes_cons, ← List.append_assoc]
      split_ifs with hlen
      · obtain ⟨ring₁, hwrite, h₁⟩ := h.write c.bytes
        obtain ⟨ring₂, hrest, h₂⟩ := ih h₁
        exact ⟨ring₂, by rw [UnsafeEnvoyBuffer.toUnsafeBytes_getD, hwrite, Option.bind_some, hrest], h₂⟩
      · have hempty : c.bytes = [] := List.eq_nil_of_length_eq_zero (by
          change ¬0 < c.bytes.length at hlen
          omega)
        rw [hempty, List.append_nil]
        exact ih h

lemma Shows.on (h : Shows i f b) (effects : List Effect) :
    f.on effects = some (effects.map (b.handle, ·)) := by
  rw [Filter.on, h.handle, h.stream]
  cases effects <;> rfl

lemma step_shows (json : Unmarshal) (gjson : Bytes → GoString) (m : Metrics) (h : Shows i f b)
    (op : Callback) :
    ∃ f', Filter.step json gjson m f op = some (f', (b.step json gjson m op).2.map (b.handle, ·)) ∧
      (op ≠ .streamComplete → Shows i f' (b.step json gjson m op).1) ∧ Pooled f' := by
  have hpooled {f' : Filter} {b' : Stream} (h : Shows i f' b') : Pooled f' := ⟨_, _, h.ring⟩
  cases op with
  | requestHeaders => exact ⟨f, rfl, fun _ => h, hpooled h⟩
  | requestBody body endStream =>
      cases endStream with
      | false => exact ⟨f, rfl, fun _ => h, hpooled h⟩
      | true =>
          have h' : Shows i { f with cluster := (routing gjson m body).1 }
              { b with cluster := (routing gjson m body).1 } := { h with cluster := rfl }
          exact ⟨_, by rw [Filter.step]; simp only [h.on]; rfl, fun _ => h', hpooled h'⟩
  | responseHeaders headers =>
      have h' : Shows i { f with skipSSE := f.skipSSE || notSSE headers }
          { b with skipSSE := b.skipSSE || notSSE headers } :=
        { h with skipSSE := congrArg (· || notSSE headers) h.skipSSE }
      exact ⟨_, rfl, fun _ => h', hpooled h'⟩
  | responseBody body endStream =>
      by_cases hskip : b.skipSSE = true
      · rw [Filter.step, if_pos (h.skipSSE.trans hskip), Stream.step, if_pos hskip]
        exact ⟨f, rfl, fun _ => h, hpooled h⟩
      obtain ⟨ring, hwrite, hholds⟩ := writeChunks_holds h.ring body
      rw [Filter.step, if_neg (h.skipSSE ▸ hskip), hwrite, Option.bind_some, Stream.step, if_neg hskip]
      cases endStream with
      | false =>
          have h' : Shows i { f with ring := ring } { b with data := b.data ++ chunkBytes body } :=
            { h with ring := hholds }
          exact ⟨_, rfl, fun _ => h', hpooled h'⟩
      | true =>
          have htail : ring.readTail.1 = (b.data ++ chunkBytes body).rtake (64 * 1024) :=
            hholds.wellFormed.bytes.1.trans (hholds.content rfl)
          have h' : Shows i { f with ring := ring.readTail.2.reset } { b with data := [] } :=
            { h with ring := hholds.readTail.reset }
          refine ⟨_, ?_, fun _ => h', hpooled h'⟩
          dsimp only
          rw [hholds.slab.shows, htail, h.cluster, h.on]
          rfl
  | streamComplete => exact ⟨_, rfl, by simp, _, _, h.ring⟩

/-- A filter from the pool does what the stream does. -/
lemma filter_refines (json : Unmarshal) (gjson : Bytes → GoString) (m : Metrics) :
    Refines (factory json gjson m) (alone json gjson m) Pooled Shows where
  new := ⟨[], false, HeadTail.holds_new (by decide)⟩
  create := by
    rintro i f ⟨data, tailed, hring⟩
    exact ⟨rfl, rfl, rfl, rfl, hring.reset⟩
  step i f b op f' out h hstep := by
    obtain ⟨f'', heq, hshows, hpooled⟩ := step_shows json gjson m h op
    obtain ⟨rfl, rfl⟩ := Prod.mk.inj (Option.some.inj (heq.symm.trans hstep))
    refine ⟨_, rfl, ?_⟩
    cases op with
    | streamComplete => exact hpooled
    | _ => exact hshows (by simp)

/-! ## What is counted for a stream -/

/-- The calls of a stream from its callbacks. -/
def Stream.effects (json : Unmarshal) (gjson : Bytes → GoString) (m : Metrics) (b : Stream) :
    List Callback → List Effect
  | [] => []
  | op :: ops => (b.step json gjson m op).2 ++ Stream.effects json gjson m (b.step json gjson m op).1 ops

lemma Stream.step_handle (b : Stream) (op : Callback) : (b.step json gjson m op).1.handle = b.handle := by
  cases op <;> simp only [Stream.step] <;> split_ifs <;> rfl

lemma answer_effects {outs outs' : List (List (ℕ × Effect))} {b' : Stream} {ops : List Callback}
    (h : run (alone json gjson m).answer (b, outs) ops = some (b', outs')) :
    outs'.flatten = outs.flatten ++ (b.effects json gjson m ops).map (b.handle, ·) := by
  induction ops generalizing b outs with
  | nil =>
      obtain ⟨rfl, rfl⟩ := Prod.mk.inj (Option.some.inj h)
      simp [Stream.effects]
  | cons op ops ih =>
      obtain ⟨mid, hmid, hrest⟩ := run_cons_eq_some.mp h
      obtain rfl := Option.some.inj hmid
      rw [ih hrest, Stream.step_handle, Stream.effects]
      simp

/-- Request body that is still waited for calls nothing. -/
lemma effects_early (early : List (List UnsafeEnvoyBuffer)) (ops : List Callback) :
    b.effects json gjson m (early.map (.requestBody · false) ++ ops) = b.effects json gjson m ops := by
  induction early with
  | nil => rfl
  | cons _ _ ih => exact ih

/-- Response body calls nothing before its end. -/
lemma effects_bodies (bodies : List (List UnsafeEnvoyBuffer)) (hskip : b.skipSSE = false)
    (ops : List Callback) : b.effects json gjson m (bodies.map (.responseBody · false) ++ ops) =
      { b with data := b.data ++ chunkBytes bodies.flatten }.effects json gjson m ops := by
  induction bodies generalizing b with
  | nil => simp
  | cons body bodies ih =>
      rw [List.map_cons, List.cons_append, Stream.effects, Stream.step, if_neg (by simp [hskip]),
        if_neg (by simp), List.nil_append, ih (by exact hskip), List.flatten_cons, chunkBytes_append,
        List.append_assoc]

lemma effects_skipped (bodies : List (List UnsafeEnvoyBuffer)) (hskip : b.skipSSE = true)
    (ops : List Callback) : b.effects json gjson m (bodies.map (.responseBody · false) ++ ops) =
      b.effects json gjson m ops := by
  induction bodies with
  | nil => rfl
  | cons body bodies ih =>
      rw [List.map_cons, List.cons_append, Stream.effects, Stream.step, if_pos hskip, List.nil_append]
      exact ih

end

/-- The callbacks of a request with a body and its response. -/
def exchange (early : List (List UnsafeEnvoyBuffer)) (body : List UnsafeEnvoyBuffer) (headers : HeaderMap)
    (bodies : List (List UnsafeEnvoyBuffer)) (last : List UnsafeEnvoyBuffer) : List Callback :=
  .requestHeaders :: (early.map (.requestBody · false) ++
    .requestBody body true :: .responseHeaders headers ::
      (bodies.map (.responseBody · false) ++ [.responseBody last true]))

lemma effects_exchange (json : Unmarshal) (gjson : Bytes → GoString) (m : Metrics) (i : ℕ)
    (early : List (List UnsafeEnvoyBuffer)) (body : List UnsafeEnvoyBuffer) (headers : HeaderMap)
    (bodies : List (List UnsafeEnvoyBuffer)) (last : List UnsafeEnvoyBuffer) :
    Stream.effects json gjson m { handle := i } (exchange early body headers bodies last) =
      (routing gjson m body).2 ++
        if notSSE headers then [] else
          let data := chunkBytes (bodies.flatten ++ last)
          counters m (routing gjson m body).1
            (extractUsage json (data.take (8 * 1024)) (data.rtake (64 * 1024))) := by
  rw [exchange, Stream.effects, Stream.step, List.nil_append, effects_early, Stream.effects, Stream.step,
    if_pos rfl, Stream.effects, Stream.step, List.nil_append, Bool.false_or]
  congr 1
  cases hsse : notSSE headers with
  | true => rw [effects_skipped _ rfl]; rfl
  | false =>
      rw [effects_bodies _ rfl, List.nil_append, chunkBytes_append]
      exact List.append_nil _

/-- **Every stream is counted for itself.**  However the streams on one pool interleave, what the filter of
a stream calls is called on the handle of that stream, and it is what follows from its own callbacks: the
route of the model in the first chunk of its last request body, and, for an event stream, the tokens in the
first 8 KB and the last 64 KB of its response, counted for the cluster it has been routed to.  No callback
panics. -/
theorem filters_count (json : Unmarshal) (gjson : Bytes → GoString) (m : Metrics)
    {ls : List (Label ℕ Callback)} {s : System ℕ Filter Callback (List (ℕ × Effect))}
    (hrun : run (System.step (factory json gjson m)) {} ls = some s) :
    (∀ i, ((s.entries i).map (·.out)).flatten = (Stream.effects json gjson m { handle := i }
        ((s.entries i).map (·.op))).map (i, ·)) ∧
      (∀ i early body headers bodies last,
        (s.entries i).map (·.op) = exchange early body headers bodies last →
        ((s.entries i).map (·.out)).flatten = ((routing gjson m body).2 ++
          if notSSE headers then [] else
            let data := chunkBytes (bodies.flatten ++ last)
            counters m (routing gjson m body).1
              (extractUsage json (data.take (8 * 1024)) (data.rtake (64 * 1024)))).map (i, ·)) ∧
      ∀ i op, s.own i ≠ none → ∃ s', s.step (factory json gjson m) (.callback i op) = some s' := by
  have hisolated := System.isolated_run (filter_refines json gjson m) hrun
  have heffects (i : ℕ) : ((s.entries i).map (·.out)).flatten =
      (Stream.effects json gjson m { handle := i } ((s.entries i).map (·.op))).map (i, ·) := by
    obtain ⟨b, hb⟩ := hisolated.answered i
    exact answer_effects hb
  refine ⟨heffects, fun i early body headers bodies last hops => ?_, fun i op hown => ?_⟩
  · rw [heffects, hops, effects_exchange]
  · refine hisolated.enabled (fun i f b hshows => ?_) hown
    obtain ⟨f', hstep, -⟩ := step_shows json gjson m hshows op
    exact ⟨f', _, hstep⟩

/-- Two streams, of which the second gets the filter of the first. -/
def twoStreams : List (Label ℕ Callback) :=
  [.create 0 none, .callback 0 .requestHeaders, .callback 0 (.requestBody [⟨some (ascii "gpt-4o")⟩] true),
    .callback 0 .streamComplete, .create 1 (some 0), .callback 1 .requestHeaders,
    .callback 1 (.requestBody [⟨some (ascii "claude-3")⟩] true),
    .callback 1 (.responseHeaders ⟨fun _ => none⟩), .callback 1 (.responseBody [⟨some deltaLines⟩] true)]

/-- What the second one calls, where the whole body is the name of the model. -/
theorem filters_count_twoStreams :
    ∃ s, run (System.step (factory twoMessages id ⟨1, 2, 3⟩)) {} twoStreams = some s ∧
      ((s.entries 1).map (·.out)).flatten =
        [(1, .setRequestHeader (ascii "x-cluster") (ascii "anthropic")), (1, .clearRouteCache),
          (1, .incrementCounterValue 3 1 (ascii "anthropic"))] := by
  obtain ⟨s, hrun, hops⟩ : ∃ s, run (System.step (factory twoMessages id ⟨1, 2, 3⟩)) {} twoStreams = some s ∧
      (s.entries 1).map (·.op) = exchange [] [⟨some (ascii "claude-3")⟩] ⟨fun _ => none⟩ []
        [⟨some deltaLines⟩] := ⟨_, rfl, rfl⟩
  refine ⟨s, hrun, ?_⟩
  rw [(filters_count twoMessages id ⟨1, 2, 3⟩ hrun).2.1 1 _ _ _ _ _ hops]
  decide

end Luwes.LlmProxy
