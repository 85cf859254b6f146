import Luwes.Sahl.NilWriter
import Luwes.Sahl.ObserverCalls
import Mathlib.Data.List.Induction

/-!
# Observers that collect the response

The response observers of the examples have one plan: at the call for the headers they put a fresh state
into the context slot, with each body call they add the chunk to it, and at the end of the stream they
report what they have found.  They tell the headers call by `Data == nil && !EndStream`.

So what is reported is decided by the bytes since the last call that looks like the one for the headers
(`collected`): `observer_rule` carries an invariant over these bytes through every run of the filter.
-/

namespace Luwes.Sahl

open LabelledRun

/-- An observer between two calls: the value in the context slot, what it has asked of its Writer, and how
often it has read the clock. -/
structure Tap (σ : Type) where
  context : Option σ := none
  calls : List UserCall := []
  readings : ℕ := 0
  deriving DecidableEq, Repr

/-- A call of the observer: the chunk, and whether the Writer is there. -/
structure TapCall where
  chunk : ResponseChunk
  hasWriter : Bool
  deriving DecidableEq, Repr

namespace Tap

variable {σ : Type}

/-- A method of the Writer; on a nil Writer it panics. -/
def ask (t : Tap σ) (call : TapCall) (c : UserCall) : Option (Tap σ) :=
  if call.hasWriter then some { t with calls := t.calls ++ [c] } else none

/-- `*chunk.Context = s`. -/
def store (t : Tap σ) (call : TapCall) (s : σ) : Option (Tap σ) :=
  if call.chunk.context then some { t with context := some s } else none

/-- `*chunk.Context`. -/
def load (t : Tap σ) (call : TapCall) : Option (Option σ) :=
  if call.chunk.context then some t.context else none

lemma foldlM_ask (t : Tap σ) {call : TapCall} (h : call.hasWriter = true) (cs : List UserCall) :
    cs.foldlM (fun t c => t.ask call c) t = some { t with calls := t.calls ++ cs } := by
  induction cs generalizing t with
  | nil => simp
  | cons c cs ih =>
      rw [List.foldlM_cons, ask, if_pos h]
      simpa using ih { t with calls := t.calls ++ [c] }

end Tap

/-- The calls of the observer in a record. -/
def tapCalls (tr : List Obs) : List TapCall :=
  tr.filterMap fun
    | .observed _ chunk _ hasWriter => some ⟨chunk, hasWriter⟩
    | _ => none

lemma tapCalls_chunks (stored : Option ℕ) (tr : List Obs) :
    (tapCalls tr).map (·.chunk) = (seenFrom stored tr).map (·.chunk) := by
  induction tr generalizing stored with
  | nil => rfl
  | cons o tr ih =>
      cases o with
      | observed cb chunk ctx hasWriter => exact congrArg _ (ih stored)
      | user cb w c => cases c <;> exact ih _
      | _ => exact ih stored

/-- A chunk with the Writer and the context slot of the request. -/
structure TapCall.Sound (headers : HeaderMap) (call : TapCall) : Prop where
  taken : TakenFrom headers call.chunk
  context : call.chunk.context = true
  hasWriter : call.hasWriter = true

/-- The call for a body buffer. -/
structure TapCall.Carries (headers : HeaderMap) (b : List UnsafeEnvoyBuffer × Bool) (call : TapCall) :
    Prop extends call.Sound headers where
  data : call.chunk.data = bodyData b.1
  endStream : call.chunk.endStream = b.2
  hasHeaders : call.chunk.headers = false

/-- What has been collected, and one more body buffer: with nil `Data` it looks like the headers. -/
def collect (data : Bytes) (b : List UnsafeEnvoyBuffer × Bool) : Bytes :=
  if bodyData b.1 = none ∧ b.2 = false then [] else data ++ (bodyData b.1).getD []

/-- The bytes the observer is given since a call last looked like the one for the headers. -/
def collected (bodies : List (List UnsafeEnvoyBuffer × Bool)) : Bytes := bodies.foldl collect []

/-- No buffer looks like the headers when none starts with a chunk of length 0. -/
lemma collected_eq {bodies : List (List UnsafeEnvoyBuffer × Bool)} (h : ∀ b ∈ bodies, StartsWithBytes b.1) :
    collected bodies = bodies.flatMap fun b => (bodyData b.1).getD [] := by
  induction bodies using List.reverseRecOn with
  | nil => rfl
  | append_singleton bodies b ih =>
      have hb := bodyData_ne_none.mpr (h b (by simp))
      rw [collected, List.foldl_append, ← collected, ih fun b hb => h b (by simp [hb]),
        List.foldl_cons, List.foldl_nil, collect, if_neg fun hnil => hb hnil.1]
      simp

/-- In a run in which the request comes first, they have a Writer. -/
lemma tapCalls_hasWriter {r : ℕ} {d : FilterDef} {ls : List State.Label} {s : State}
    (hrun : run State.step (State.new r d) ls = some s)
    (hafter : Along State.step State.AfterRequest (State.new r d) ls) :
    ∀ call ∈ tapCalls s.trace, call.hasWriter = true := by
  have hnew : (State.new r d).Observing := ⟨State.shape_new r d, fun h => by simp [State.new] at h⟩
  have hempty : (State.new r d).ObserverHasWriter := by simp [State.ObserverHasWriter, State.new]
  have hwriter : s.ObserverHasWriter :=
    (run_iff_along (fun _ _ _ => State.observing_step) (fun _ _ _ => State.observes_step) hnew
      hrun).mpr ⟨hempty, hafter⟩
  intro call hcall
  obtain ⟨o, ho, heq⟩ := List.mem_filterMap.mp hcall
  cases o with
  | observed cb chunk ctx hasWriter =>
      obtain rfl := Option.some.inj heq
      exact hwriter cb chunk ctx hasWriter ho
  | _ => simp at heq

lemma forall₂_carries {headers : HeaderMap} {bodies : List (List UnsafeEnvoyBuffer × Bool)}
    {vs : List Seen} {calls : List TapCall}
    (h : List.Forall₂ (fun b v => BodyCall headers b v ∧ v.chunk.data = bodyData b.1) bodies vs)
    (hchunks : calls.map (·.chunk) = vs.map (·.chunk)) (hwriter : ∀ call ∈ calls, call.hasWriter = true) :
    List.Forall₂ (TapCall.Carries headers) bodies calls := by
  induction h generalizing calls with
  | nil =>
      obtain rfl : calls = [] := by simpa using hchunks
      exact .nil
  | @cons b v bodies vs hb _ ih =>
      cases calls with
      | nil => simp at hchunks
      | cons call calls =>
          obtain ⟨hcall, hrest⟩ : call.chunk = v.chunk ∧ _ := List.cons.inj hchunks
          obtain ⟨hcallWriter, hrestWriter⟩ := List.forall_mem_cons.mp hwriter
          obtain ⟨⟨hend, hheaders, htaken, hcontext⟩, hdata⟩ := hb
          rw [← hcall] at hend hheaders htaken hdata
          exact .cons ⟨⟨htaken, hcall ▸ hcontext.1, hcallWriter⟩, hdata, hend, hheaders⟩ (ih hrest hrestWriter)

/-- **The run, as the observer sees it.** -/
lemma tapCalls_responseOf {r : ℕ} {d : FilterDef} {ls : List State.Label} {s : State}
    (hd : d.responseFn.isSome = true) (hrun : run State.step (State.new r d) ls = some s)
    (hafter : Along State.step State.AfterRequest (State.new r d) ls) {headers : HeaderMap}
    {bodies : List (List UnsafeEnvoyBuffer × Bool)}
    (hresponse : ls.filterMap State.Label.responseCall = responseOf headers bodies) :
    ∃ first rest, tapCalls s.trace = first :: rest ∧ first.Sound headers ∧ first.chunk.data = none ∧
      first.chunk.endStream = false ∧ first.chunk.headers = true ∧
      List.Forall₂ (TapCall.Carries headers) bodies rest := by
  have hI := State.watched_run (State.watched_new hd) hrun
  rw [List.nil_append, hresponse] at hI
  obtain ⟨v, vs, hseen, hv, hvs⟩ := seen_responseOf hI
  have hchunks := tapCalls_chunks none s.trace
  have hwriter := tapCalls_hasWriter hrun hafter
  rw [← seen, hseen] at hchunks
  cases hcalls : tapCalls s.trace with
  | nil => simp [hcalls] at hchunks
  | cons first rest =>
      rw [hcalls] at hchunks hwriter
      obtain ⟨hfirst, hrest⟩ : first.chunk = v.chunk ∧ _ := List.cons.inj hchunks
      obtain ⟨hfirstWriter, hrestWriter⟩ := List.forall_mem_cons.mp hwriter
      refine ⟨first, rest, rfl, ⟨?_, ?_, hfirstWriter⟩, ?_, ?_, ?_, forall₂_carries hvs hrest hrestWriter⟩
      · exact hfirst ▸ hv.taken
      · exact hfirst ▸ hv.context.1
      · exact hfirst ▸ hv.data
      · exact hfirst ▸ hv.endStream
      · exact hfirst ▸ hv.hasHeaders

section

variable {σ : Type} {f : Tap σ → TapCall → Option (Tap σ)} {I Q : Bytes → Tap σ → Prop}
  {headers : HeaderMap} {bodies : List (List UnsafeEnvoyBuffer × Bool)} {last : List UnsafeEnvoyBuffer}

lemma run_bodies
    (hbody : ∀ data t b call, I data t → TapCall.Carries headers b call → b.2 = false →
      ∃ t', f t call = some t' ∧ I (collect data b) t')
    (hend : ∀ data t b call, I data t → TapCall.Carries headers b call → b.2 = true →
      ∃ t', f t call = some t' ∧ Q (collect data b) t')
    (hopen : ∀ b ∈ bodies, b.2 = false) {calls : List TapCall} {data : Bytes} {t : Tap σ}
    (hcalls : List.Forall₂ (TapCall.Carries headers) (bodies ++ [(last, true)]) calls) (hI : I data t) :
    ∃ t', run f t calls = some t' ∧ Q ((bodies ++ [(last, true)]).foldl collect data) t' := by
  induction bodies generalizing calls data t with
  | nil =>
      cases hcalls with
      | cons hcall hrest =>
          cases hrest
          obtain ⟨t', ht', hQ⟩ := hend data t _ _ hI hcall rfl
          exact ⟨t', run_cons_eq_some.mpr ⟨t', ht', rfl⟩, hQ⟩
  | cons b bodies ih =>
      cases hcalls with
      | cons hcall hrest =>
          obtain ⟨hb, hopen⟩ := List.forall_mem_cons.mp hopen
          obtain ⟨m, hm, hI⟩ := hbody data t _ _ hI hcall hb
          obtain ⟨t', ht', hQ⟩ := ih hopen hrest hI
          exact ⟨t', run_cons_eq_some.mpr ⟨m, hm, ht'⟩, hQ⟩

/-- **The rule.**  An observer that makes its state at the headers, keeps `I` with each body buffer that
does not end the stream and then establishes `Q` has established `Q` at the end of the response. -/
lemma observer_rule
    (hheaders : ∀ call : TapCall, call.Sound headers → call.chunk.data = none →
      call.chunk.endStream = false → ∃ t, f {} call = some t ∧ I [] t)
    (hbody : ∀ data t b call, I data t → TapCall.Carries headers b call → b.2 = false →
      ∃ t', f t call = some t' ∧ I (collect data b) t')
    (hend : ∀ data t b call, I data t → TapCall.Carries headers b call → b.2 = true →
      ∃ t', f t call = some t' ∧ Q (collect data b) t')
    {r : ℕ} {d : FilterDef} {ls : List State.Label} {s : State}
    (hd : d.responseFn.isSome = true) (hrun : run State.step (State.new r d) ls = some s)
    (hafter : Along State.step State.AfterRequest (State.new r d) ls)
    (hopen : ∀ b ∈ bodies, b.2 = false)
    (hresponse : ls.filterMap State.Label.responseCall = responseOf headers (bodies ++ [(last, true)])) :
    ∃ t, run f {} (tapCalls s.trace) = some t ∧ Q (collected (bodies ++ [(last, true)])) t := by
  obtain ⟨first, rest, hcalls, hfirst, hdata, hfirstOpen, -, hrest⟩ :=
    tapCalls_responseOf hd hrun hafter hresponse
  obtain ⟨t₀, ht₀, hI⟩ := hheaders first hfirst hdata hfirstOpen
  obtain ⟨t, ht, hQ⟩ := run_bodies hbody hend hopen hrest hI
  exact ⟨t, by rw [hcalls]; exact run_cons_eq_some.mpr ⟨t₀, ht₀, ht⟩, hQ⟩

end

end Luwes.Sahl
