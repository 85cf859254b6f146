import Luwes.Sahl.Observer
import Luwes.Sahl.Shape

/-!
# Telling observer calls apart (`sahl/response.go`)

An observer is called once with the response headers and once for every `OnResponseBody`, each time with
the same chunk.  What tells it which call it is in is `Data`: nil "during the OnResponseHeaders call", and
never otherwise.  For a body without chunks the code takes care of that, with an empty slice "so response
handlers can distinguish this from the headers call".

A body whose first chunk has no bytes is a body with chunks, though, and `ToUnsafeBytes` makes nil of
that chunk.  So the calls can be told apart exactly for the responses none of whose body buffers starts
with a chunk of length 0 (`tellableApart_iff`).  Everything else about the calls is as it should be
for every response.

The fields are those the filter passes.  Of what an observer does to the chunk it is given only the
store into the context slot is modelled.
-/

namespace Luwes.Sahl

open LabelledRun

/-! ## The calls of a response and what the observer sees of them -/

/-- A callback of the response. -/
inductive ResponseCall
  | headers (headers : HeaderMap)
  | body (body : List UnsafeEnvoyBuffer) (endStream : Bool)

/-- The callback of the response that a step is. -/
def State.Label.responseCall : State.Label → Option ResponseCall
  | .responseHeaders headers => some (.headers headers)
  | .responseBody body endStream => some (.body body endStream)
  | _ => none

/-- What one call of the observer sees: the chunk, the value in the context slot, and, as a ghost, the
value that was stored there last. -/
structure Seen where
  chunk : ResponseChunk
  ctx : Option ℕ
  stored : Option ℕ
  deriving DecidableEq, Repr

/-- The calls of the observer in a record before which `stored` was in the slot. -/
def seenFrom (stored : Option ℕ) : List Obs → List Seen
  | [] => []
  | .observed _ chunk ctx _ :: tr => ⟨chunk, ctx, stored⟩ :: seenFrom stored tr
  | .user _ _ (.setContext v) :: tr => seenFrom (some v) tr
  | _ :: tr => seenFrom stored tr

/-- What is in the slot after the record. -/
def storedAfter (stored : Option ℕ) : List Obs → Option ℕ
  | [] => stored
  | .user _ _ (.setContext v) :: tr => storedAfter (some v) tr
  | _ :: tr => storedAfter stored tr

/-- The calls of the observer. -/
def seen (tr : List Obs) : List Seen := seenFrom none tr

/-- The fields that the headers call takes from the response headers. -/
structure TakenFrom (headers : HeaderMap) (c : ResponseChunk) : Prop where
  statusCode : c.statusCode =
    ((nonEmptyHeader headers ":status").map fun buf => parseStatus buf.toString).getD 0
  contentType : c.contentType =
    ((nonEmptyHeader headers "content-type").map fun buf => buf.toString).getD []
  responseFlags : c.responseFlags =
    ((nonEmptyHeader headers "x-envoy-response-flags").map fun buf => buf.toString).getD []

/-- The context slot is the request's, with what was stored last. -/
def Seen.SameContext (v : Seen) : Prop := v.chunk.context = true ∧ v.ctx = v.stored

/-- The call is the one for the response headers. -/
structure HeadersCall (headers : HeaderMap) (v : Seen) : Prop where
  data : v.chunk.data = none
  endStream : v.chunk.endStream = false
  hasHeaders : v.chunk.headers = true
  taken : TakenFrom headers v.chunk
  context : v.SameContext

/-- All that a call for a body buffer should show, `Data` apart. -/
structure BodyCall (headers : HeaderMap) (b : List UnsafeEnvoyBuffer × Bool) (v : Seen) : Prop where
  endStream : v.chunk.endStream = b.2
  hasHeaders : v.chunk.headers = false
  taken : TakenFrom headers v.chunk
  context : v.SameContext

/-- The observer is called with the headers once and then with every body, and only the headers call
has no `Data`. -/
def TellableApart (headers : HeaderMap) (bodies : List (List UnsafeEnvoyBuffer × Bool))
    (vs : List Seen) : Prop :=
  ∃ first rest, vs = first :: rest ∧ HeadersCall headers first ∧
    List.Forall₂ (fun b v => BodyCall headers b v ∧ v.chunk.data ≠ none) bodies rest

/-- The buffer is empty or starts with a chunk that has bytes. -/
def StartsWithBytes (body : List UnsafeEnvoyBuffer) : Prop :=
  ∀ c ∈ body.head?, c.bytes ≠ []

/-- What `ToUnsafeBytes` makes of the first chunk. -/
lemma bodyData_ne_none {body : List UnsafeEnvoyBuffer} :
    bodyData body ≠ none ↔ StartsWithBytes body := by
  cases body with
  | nil => simp [bodyData, StartsWithBytes]
  | cons c cs =>
      rcases c with ⟨_ | bs⟩
      · simp [bodyData, StartsWithBytes, UnsafeEnvoyBuffer.toUnsafeBytes, UnsafeEnvoyBuffer.bytes]
      · simp [bodyData, StartsWithBytes, UnsafeEnvoyBuffer.toUnsafeBytes, UnsafeEnvoyBuffer.bytes]

/-! ## The record as it grows -/

lemma seenFrom_append (stored : Option ℕ) (xs ys : List Obs) :
    seenFrom stored (xs ++ ys) = seenFrom stored xs ++ seenFrom (storedAfter stored xs) ys := by
  induction xs generalizing stored with
  | nil => rfl
  | cons x xs ih =>
      cases x with
      | user who id c => cases c <;> simp [seenFrom, storedAfter, ih]
      | _ => simp [seenFrom, storedAfter, ih]

lemma storedAfter_append (stored : Option ℕ) (xs ys : List Obs) :
    storedAfter stored (xs ++ ys) = storedAfter (storedAfter stored xs) ys := by
  induction xs generalizing stored with
  | nil => rfl
  | cons x xs ih =>
      cases x with
      | user who id c => cases c <;> simp [storedAfter, ih]
      | _ => simp [storedAfter, ih]

/-- An event that is neither a call of the observer nor a store into the slot. -/
def Obs.passesObserver : Obs → Bool
  | .observed _ _ _ _ | .user _ _ (.setContext _) => false
  | _ => true

lemma seenFrom_passes {stored : Option ℕ} {obs : List Obs}
    (h : obs.all (·.passesObserver) = true) :
    seenFrom stored obs = [] ∧ storedAfter stored obs = stored := by
  induction obs generalizing stored with
  | nil => exact ⟨rfl, rfl⟩
  | cons o obs ih =>
      obtain ⟨ho, hobs⟩ := by simpa using h
      have hobs' : seenFrom stored obs = [] ∧ storedAfter stored obs = stored :=
        ih (by simpa using hobs)
      cases o with
      | user who id c => cases c <;> first | exact hobs' | simp [Obs.passesObserver] at ho
      | observed => simp [Obs.passesObserver] at ho
      | _ => exact hobs'

@[simp] lemma passesObserver_calls (cs : List HandleCall) :
    (cs.map Obs.call).all (·.passesObserver) = true :=
  List.all_eq_true.mpr fun o ho => by
    obtain ⟨c, -, rfl⟩ := List.mem_map.mp ho
    rfl

/-! ## The chunk as it is written -/

/-- The chunk the observer is called with. -/
def ResponseChunk.after (c : ResponseChunk) : ResponseCall → ResponseChunk
  | .headers headers => (ResponseState.onResponseHeaders { chunk := c } headers).chunk
  | .body body endStream => (ResponseState.onResponseBody { chunk := c } body endStream).chunk

/-- The chunks of a response. -/
def chunksOf (c : ResponseChunk) : List ResponseCall → List ResponseChunk
  | [] => []
  | call :: calls => c.after call :: chunksOf (c.after call) calls

lemma chunksOf_concat (c : ResponseChunk) (calls : List ResponseCall) (call : ResponseCall) :
    chunksOf c (calls ++ [call]) = chunksOf c calls ++ [(calls.foldl .after c).after call] := by
  induction calls generalizing c with
  | nil => rfl
  | cons x calls ih => simp [chunksOf, ih]

namespace State

/-! ## A step that is no response callback -/

/-- The response state is left alone, but for what user code stores in the slot. -/
structure RespKept (s s' : State) : Prop where
  chunk : s'.respState.chunk = s.respState.chunk
  trace : ∃ obs, s'.trace = s.trace ++ obs ∧ (∀ stored, seenFrom stored obs = []) ∧
    s'.respState.ctx = storedAfter s.respState.ctx obs

lemma respKept_of {s s' : State} {obs : List Obs} (hresp : s'.respState = s.respState)
    (htrace : s'.trace = s.trace ++ obs) (hobs : obs.all (·.passesObserver) = true) :
    s.RespKept s' where
  chunk := by rw [hresp]
  trace := ⟨obs, htrace, fun _ => (seenFrom_passes hobs).1, by rw [hresp, (seenFrom_passes hobs).2]⟩

lemma respKept_silent {s s' : State} (hresp : s'.respState = s.respState)
    (htrace : s'.trace = s.trace) : s.RespKept s' :=
  respKept_of hresp (htrace.trans (List.append_nil _).symm) rfl

lemma userCall_respKept (s : State) (who : Actor) (c : UserCall) :
    s.RespKept (s.userCall who c) := by
  have hcalls : ∀ cs : List HandleCall,
      (Obs.user who ⟨s.request, s.seq⟩ c :: cs.map .call).all (·.passesObserver) =
        (Obs.user who ⟨s.request, s.seq⟩ c).passesObserver := by
    intro cs
    rw [List.all_cons, passesObserver_calls, Bool.and_true]
  cases c with
  | setContext v =>
      exact ⟨rfl, [.user who ⟨s.request, s.seq⟩ (.setContext v)], rfl, fun _ => rfl, rfl⟩
  | _ => exact respKept_of rfl rfl (hcalls _)

/-- What user code does, but for its calls of methods that return at once. -/
lemma Acts.respKept {s s' : State} {who : Actor} {a : Act} {code : Code}
    (h : Acts s who a code s') (ha : ∀ u, a ≠ .calls u) : s.RespKept s' := by
  cases h with
  | reads | schedulesDo => exact respKept_silent rfl rfl
  | calls c => exact absurd rfl (ha c)
  | startsGo | failsCallout | failsStream => exact respKept_of rfl rfl rfl
  | startsCallout | startsStream => exact respKept_of rfl (List.append_assoc _ _ _) rfl

lemma op_respKept {s s' : State} {who : Actor} {c : Choice} {p : Prog} {code : Code}
    (h : s.op who c p = some (code, s')) : s.RespKept s' := by
  cases p with
  | call u k =>
      obtain ⟨-, rfl⟩ := by simpa [op] using h
      exact userCall_respKept s who u
  | go | httpCallout | httpStream =>
      refine (op_acts h).respKept fun u => ?_
      rw [act]
      split_ifs <;> simp
  | _ => exact (op_acts h).respKept (by simp [act])

lemma passesObserver_flush (b : Bool) (cs : List HandleCall) :
    (Obs.flushed b :: cs.map .call).all (·.passesObserver) = true := by
  rw [List.all_cons, passesObserver_calls]
  rfl

lemma passesObserver_finish {obs : List Obs} (h : obs.all recordsAtFinish = true) :
    obs.all (·.passesObserver) = true :=
  List.all_eq_true.mpr fun o ho => by
    have hrecords := List.all_eq_true.mp h o ho
    cases o <;> simp_all [recordsAtFinish, Obs.passesObserver]

lemma finish_respKept (s : State) (rest : List Frame) (cb : Callback) :
    s.RespKept ({ s with stack := rest }.finish cb) := by
  obtain ⟨fn, obs, heq, hobs⟩ := finish_eq { s with stack := rest } cb
  rw [heq]
  exact respKept_of rfl rfl (passesObserver_finish hobs)

lemma worker_respKept {s s' : State} {c : Choice} (h : s.step (.worker c) = some s') :
    s.RespKept s' := by
  simp only [step] at h
  split at h
  · simp at h
  next f rest hstack =>
      unfold workerStep at h
      split at h
      · obtain rfl := Option.some.inj h
        exact finish_respKept s rest f.cb
      · split at h
        · simp at h
        · obtain ⟨⟨code, s₁⟩, hop, rfl⟩ := Option.map_eq_some_iff.mp h
          have hk := op_respKept hop
          exact ⟨hk.chunk, hk.trace⟩
      · obtain rfl := Option.some.inj h
        exact respKept_silent rfl rfl
      · obtain rfl := Option.some.inj h
        exact respKept_silent rfl rfl
      · obtain ⟨r, -, rfl⟩ := Option.map_eq_some_iff.mp h
        exact respKept_silent rfl rfl

lemma goroutine_respKept {s s' : State} {c : Choice} (h : s.step (.goroutine c) = some s') :
    s.RespKept s' := by
  simp only [step] at h
  split at h
  · simp at h
  next code hgo =>
      unfold goroutineStep at h
      split at h
      · obtain rfl := Option.some.inj h
        exact respKept_of rfl rfl rfl
      · obtain ⟨⟨code, s₁⟩, hop, rfl⟩ := Option.map_eq_some_iff.mp h
        have hk := op_respKept hop
        exact ⟨hk.chunk, hk.trace⟩
      · obtain ⟨r, -, rfl⟩ := Option.map_eq_some_iff.mp h
        exact respKept_silent rfl rfl
      · simp at h
      · simp at h

/-- Nothing but the two response callbacks and `OnDestroy` has to do with the observer. -/
lemma respKept_step {s s' : State} {l : Label} (hl : l.responseCall = none)
    (hd : l.isDestroy = false) (h : s.step l = some s') : s.RespKept s' := by
  have hm := step_moves h
  cases hm with
  | workerActs => exact worker_respKept h
  | goroutineActs => exact goroutine_respKept h
  | responseHeadersPassed | responseHeadersObserved | responseBodyPassed | responseBodyObserved =>
      simp [Label.responseCall] at hl
  | destroyed => simp [Label.isDestroy] at hd
  | streamCompleteFlushed =>
      refine respKept_of rfl (List.append_assoc _ _ _) ?_
      rw [List.all_append, passesObserver_calls]
      rfl
  | doAnswered | streamEventDropped | streamEventRun | calloutReturned | streamReturned =>
      exact respKept_silent rfl rfl
  | streamEndFlushed =>
      refine respKept_of rfl (List.append_assoc _ _ _) ?_
      rw [List.all_append, passesObserver_flush]
      rfl
  | taskFlushed => exact respKept_of rfl rfl (passesObserver_flush _ _)
  | callbackFinished => exact finish_respKept _ _ _
  | _ => exact respKept_of rfl rfl rfl

/-! ## The observer's calls follow the response -/

/-- The filter has an observer, which has been called with the chunk of every response callback so far. -/
structure Watched (calls : List ResponseCall) (s : State) : Prop where
  observer : s.filterDef.responseFn.isSome = true
  chunks : (seen s.trace).map (·.chunk) = chunksOf {} calls
  context : ∀ v ∈ seen s.trace, v.SameContext
  chunk : s.destroyed = false → s.respState.chunk = calls.foldl .after {}
  ctx : s.destroyed = false → s.respState.ctx = storedAfter none s.trace

lemma watched_new {r : ℕ} {d : FilterDef} (hd : d.responseFn.isSome = true) :
    (State.new r d).Watched [] where
  observer := hd
  chunks := rfl
  context := by simp [seen, seenFrom, State.new]
  chunk _ := rfl
  ctx _ := rfl

/-- A response callback calls the observer with its chunk. -/
lemma Watched.call {calls : List ResponseCall} {s s' : State} {call : ResponseCall} {cb : Callback}
    {hasWriter : Bool} (hI : s.Watched calls) (obs : List Obs) (hlive : s.destroyed = false)
    (hdef : s'.filterDef = s.filterDef)
    (hchunk : s'.respState.chunk = s.respState.chunk.after call)
    (hctx : s'.respState.ctx = s.respState.ctx)
    (hcontext : (s.respState.chunk.after call).context = true)
    (hobs : obs.all (·.passesObserver) = true)
    (htrace : s'.trace = s.trace ++
      (obs ++ [.observed cb (s.respState.chunk.after call) s.respState.ctx hasWriter])) :
    s'.Watched (calls ++ [call]) := by
  have hseen : seen s'.trace =
      seen s.trace ++ [⟨s.respState.chunk.after call, s.respState.ctx, s.respState.ctx⟩] := by
    rw [htrace, seen, seenFrom_append, ← hI.ctx hlive, seenFrom_append,
      (seenFrom_passes hobs).1, (seenFrom_passes hobs).2]
    rfl
  refine ⟨by rw [hdef]; exact hI.observer, ?_, ?_, fun _ => ?_, fun _ => ?_⟩
  · rw [hseen, List.map_append, hI.chunks, chunksOf_concat, ← hI.chunk hlive]
    rfl
  · intro v hv
    rw [hseen] at hv
    rcases List.mem_append.mp hv with hv | hv
    · exact hI.context v hv
    · obtain rfl := List.mem_singleton.mp hv
      exact ⟨hcontext, rfl⟩
  · rw [hchunk, hI.chunk hlive, List.foldl_append]
    rfl
  · rw [hctx, hI.ctx hlive, htrace, storedAfter_append, storedAfter_append,
      (seenFrom_passes hobs).2]
    rfl

/-- Any other step shows the observer nothing. -/
lemma Watched.kept {calls : List ResponseCall} {s s' : State} (hI : s.Watched calls)
    (hdef : s'.filterDef = s.filterDef) (hlive : s'.destroyed = false → s.destroyed = false)
    (hk : s'.destroyed = false → s'.respState.chunk = s.respState.chunk)
    (htrace : ∃ obs, s'.trace = s.trace ++ obs ∧ (∀ stored, seenFrom stored obs = []) ∧
      (s'.destroyed = false → s'.respState.ctx = storedAfter s.respState.ctx obs)) :
    s'.Watched calls := by
  obtain ⟨obs, htr, hnone, hctx⟩ := htrace
  have hseen : seen s'.trace = seen s.trace := by
    rw [htr, seen, seenFrom_append, hnone, List.append_nil, seen]
  refine ⟨by rw [hdef]; exact hI.observer, by rw [hseen, hI.chunks], by rw [hseen]; exact hI.context,
    fun hd => ?_, fun hd => ?_⟩
  · rw [hk hd, hI.chunk (hlive hd)]
  · rw [hctx hd, hI.ctx (hlive hd), htr, storedAfter_append]

lemma watched_step {calls : List ResponseCall} {s s' : State} {l : Label} (hI : s.Watched calls)
    (h : s.step l = some s') : s'.Watched (calls ++ l.responseCall.toList) := by
  have hm := step_moves h
  have hnone : s.filterDef.responseFn ≠ none := by
    intro hnone
    simpa [hnone] using hI.observer
  cases hcall : l.responseCall with
  | none =>
      rw [Option.toList_none, List.append_nil]
      cases hd : l.isDestroy with
      | true =>
          cases hm with
          | destroyed =>
              exact hI.kept rfl (by simp) (by simp)
                ⟨_, rfl, fun _ => rfl, by simp⟩
          | _ => simp [Label.isDestroy] at hd
      | false =>
          have hk := respKept_step hcall hd h
          have hlive : s'.destroyed = false → s.destroyed = false := by
            rw [hm.destroyed_eq, hd, Bool.or_false]
            exact id
          obtain ⟨obs, htr, hseen, hctx⟩ := hk.trace
          exact hI.kept hm.filterDef_eq hlive (fun _ => hk.chunk) ⟨obs, htr, hseen, fun _ => hctx⟩
  | some call =>
      obtain ⟨fn, hfn⟩ := Option.ne_none_iff_exists'.mp hnone
      cases l with
      | responseHeaders headers =>
          obtain rfl := Option.some.inj hcall
          obtain ⟨hacc, rfl⟩ : s.accepting = true ∧ s.onResponseHeaders headers = s' := by
            simpa [step] using h
          have hlive := (accepting_live hacc).2
          simp only [onResponseHeaders, hfn]
          split_ifs
          · exact hI.call _ hlive rfl rfl rfl rfl rfl (List.append_assoc _ _ _)
          · exact hI.call [] hlive rfl rfl rfl rfl rfl rfl
      | responseBody body endStream =>
          obtain rfl := Option.some.inj hcall
          obtain ⟨hacc, rfl⟩ : s.accepting = true ∧ s.onResponseBody body endStream = s' := by
            simpa [step] using h
          have hfn' : (s.emit [.responseBody body endStream]).filterDef.responseFn = some fn := hfn
          simp only [onResponseBody, hfn']
          exact hI.call _ (accepting_live hacc).2 rfl rfl rfl rfl rfl (List.append_assoc _ _ _)
      | _ => simp [Label.responseCall] at hcall

lemma watched_run {calls : List ResponseCall} {s s' : State} {ls : List Label} (hI : s.Watched calls)
    (hrun : run step s ls = some s') : s'.Watched (calls ++ ls.filterMap Label.responseCall) := by
  induction ls generalizing s calls with
  | nil =>
      cases hrun
      simpa using hI
  | cons l ls ih =>
      obtain ⟨m, hm, hrest⟩ := run_cons_eq_some.mp hrun
      have hcalls : calls ++ (l :: ls).filterMap Label.responseCall =
          calls ++ l.responseCall.toList ++ ls.filterMap Label.responseCall := by
        cases hcall : l.responseCall <;> simp [hcall]
      rw [hcalls]
      exact ih (watched_step hI hm) hrest

end State

/-! ## One response -/

/-- A response as the host delivers it. -/
def responseOf (headers : HeaderMap) (bodies : List (List UnsafeEnvoyBuffer × Bool)) :
    List ResponseCall :=
  .headers headers :: bodies.map fun b => .body b.1 b.2

lemma takenFrom_headers (headers : HeaderMap) :
    TakenFrom headers (ResponseChunk.after {} (.headers headers)) := by
  constructor <;> simp only [ResponseChunk.after, ResponseState.onResponseHeaders] <;>
    split <;> rename_i heq <;> simp [heq]

lemma chunksOf_bodies {headers : HeaderMap} {c : ResponseChunk} (hc : TakenFrom headers c)
    (bodies : List (List UnsafeEnvoyBuffer × Bool)) {vs : List Seen}
    (hvs : vs.map (·.chunk) = chunksOf c (bodies.map fun b => .body b.1 b.2))
    (hcontext : ∀ v ∈ vs, v.SameContext) :
    List.Forall₂ (fun b v => BodyCall headers b v ∧ v.chunk.data = bodyData b.1) bodies vs := by
  induction bodies generalizing c vs with
  | nil =>
      obtain rfl : vs = [] := by simpa [chunksOf] using hvs
      exact .nil
  | cons b bodies ih =>
      cases vs with
      | nil => simp [chunksOf] at hvs
      | cons v vs =>
          obtain ⟨hv, hvs⟩ := by simpa [chunksOf] using hvs
          have htaken : TakenFrom headers (c.after (.body b.1 b.2)) := ⟨hc.1, hc.2, hc.3⟩
          have hbody : BodyCall headers b v := by
            refine ⟨?_, ?_, ?_, hcontext v List.mem_cons_self⟩ <;> rw [hv]
            · rfl
            · rfl
            · exact htaken
          exact .cons ⟨hbody, by rw [hv]; rfl⟩
            (ih htaken hvs fun v hv => hcontext v (List.mem_cons_of_mem _ hv))

/-- Whatever comes in between, the observer is called once with the headers and then once with each
body, with everything but `Data` as it should be. -/
lemma seen_responseOf {headers : HeaderMap} {bodies : List (List UnsafeEnvoyBuffer × Bool)}
    {s : State} (hI : s.Watched (responseOf headers bodies)) :
    ∃ first rest, seen s.trace = first :: rest ∧ HeadersCall headers first ∧
      List.Forall₂ (fun b v => BodyCall headers b v ∧ v.chunk.data = bodyData b.1) bodies rest := by
  have hchunks := hI.chunks
  have hcontext := hI.context
  cases hseen : seen s.trace with
  | nil => simp [hseen, responseOf, chunksOf] at hchunks
  | cons first rest =>
      rw [hseen] at hchunks hcontext
      obtain ⟨hfirst, hrest⟩ := by simpa [responseOf, chunksOf] using hchunks
      have htaken : TakenFrom headers first.chunk := hfirst ▸ takenFrom_headers headers
      refine ⟨first, rest, rfl, ⟨?_, ?_, ?_, htaken, hcontext first List.mem_cons_self⟩, ?_⟩
      · rw [hfirst]; rfl
      · rw [hfirst]; rfl
      · rw [hfirst]; rfl
      · exact chunksOf_bodies (takenFrom_headers headers) bodies hrest fun v hv =>
          hcontext v (List.mem_cons_of_mem _ hv)

lemma apart_iff {headers : HeaderMap} {bodies : List (List UnsafeEnvoyBuffer × Bool)} {vs : List Seen}
    (h : List.Forall₂ (fun b v => BodyCall headers b v ∧ v.chunk.data = bodyData b.1) bodies vs) :
    List.Forall₂ (fun b v => BodyCall headers b v ∧ v.chunk.data ≠ none) bodies vs ↔
      ∀ b ∈ bodies, StartsWithBytes b.1 := by
  induction h with
  | nil => simp
  | cons hb _ ih =>
      obtain ⟨hbody, hdata⟩ := hb
      rw [List.forall₂_cons, ih, List.forall_mem_cons, hdata, bodyData_ne_none, and_iff_right hbody]

/-- **The exact condition.**  In every run in which the host delivers a response, the observer can tell
its calls apart exactly when no body buffer starts with a chunk of length 0.  The observer is one that
writes to no field of the chunk but `Context`. -/
theorem tellableApart_iff (r : ℕ) (d : FilterDef) (hd : d.responseFn.isSome = true)
    (ls : List State.Label) (s : State) (hrun : run State.step (State.new r d) ls = some s)
    (headers : HeaderMap) (bodies : List (List UnsafeEnvoyBuffer × Bool))
    (hresponse : ls.filterMap State.Label.responseCall = responseOf headers bodies) :
    TellableApart headers bodies (seen s.trace) ↔ ∀ b ∈ bodies, StartsWithBytes b.1 := by
  have hI := State.watched_run (State.watched_new hd) hrun
  rw [List.nil_append, hresponse] at hI
  obtain ⟨first, rest, hseen, hfirst, hrest⟩ := seen_responseOf hI
  rw [← apart_iff hrest]
  constructor
  · rintro ⟨first', rest', hseen', -, hapart⟩
    obtain ⟨rfl, rfl⟩ := List.cons.inj (hseen.symm.trans hseen')
    exact hapart
  · exact fun hapart => ⟨first, rest, hseen, hfirst, hapart⟩

/-- A body buffer of one chunk of length 0 looks like the headers. -/
theorem emptyChunk_not_tellableApart :
    ¬ ∀ (r : ℕ) (d : FilterDef) (ls : List State.Label) (s : State) (headers : HeaderMap)
      (bodies : List (List UnsafeEnvoyBuffer × Bool)),
      d.responseFn.isSome = true → run State.step (State.new r d) ls = some s →
      ls.filterMap State.Label.responseCall = responseOf headers bodies →
      TellableApart headers bodies (seen s.trace) := by
  intro h
  obtain ⟨first, rest, hseen, -, hapart⟩ := h 0 tapFilter (responseInOneBuffer [⟨some []⟩]) _
    ⟨fun _ => none⟩ [([⟨some []⟩], true)] rfl rfl rfl
  obtain ⟨-, rfl⟩ := List.cons.inj hseen
  exact (List.forall₂_cons.mp hapart).1.2 rfl

/-- The condition evaluated on a response of one chunk. -/
theorem tellableApart_iff_oneChunk :
    ∃ s, run State.step (State.new 0 tapFilter)
        (responseInOneBuffer [⟨some (ascii "token")⟩]) = some s ∧
      (TellableApart ⟨fun _ => none⟩ [([⟨some (ascii "token")⟩], true)] (seen s.trace) ↔
        ∀ b ∈ [(([⟨some (ascii "token")⟩] : List UnsafeEnvoyBuffer), true)], StartsWithBytes b.1) :=
  ⟨_, rfl, tellableApart_iff 0 tapFilter rfl (responseInOneBuffer [⟨some (ascii "token")⟩]) _ rfl
    ⟨fun _ => none⟩ _ rfl⟩

end Luwes.Sahl
