import Luwes.Sahl.Applied
import Luwes.Lib.History

/-!
# A rejection is final

`Send` has two routes.  Without a goroutine it reaches the handle at once; with one it is kept in
`localResp` until a flush sends it.  Either way the Writer has responded, and no flush resumes the
request or applies a header any more.

Two things are not final.  A flush that sends the deferred response does not forget it, so a second
flush sends it again.  And `OnRequestBody` returns `BodyStatusContinue` on both sides of
`responded`, so a handler that rejects a buffered body lets the request go on.

The response is what `SendBytes` was called with.  `localResp` keeps the slice of the body, and here its
bytes: a handler that writes to the slice before the flush is left out.
-/

namespace Luwes.Sahl

open LabelledRun History

/-! ## What final means -/

/-- `SendLocalResponse` is called. -/
def Obs.isResponse : Obs → Bool
  | .call (.sendLocalResponse _ _) => true
  | _ => false

/-- The event undoes a rejection: the request is resumed, or changed as if it went on. -/
def Obs.undoesRejection : Obs → Bool
  | .call .continueRequest | .call (.headerSet _) | .call .clearRouteCache => true
  | _ => false

/-- The response header the event queues. -/
def Obs.responseHeader : Obs → Option (Queued HeaderMut)
  | .user _ id (.setResponseHeader key value) => some ⟨⟨key, value⟩, id⟩
  | _ => none

/-- The response headers queued so far, in order. -/
def responseHeaders (tr : List Obs) : List (Queued HeaderMut) := tr.filterMap Obs.responseHeader

/-- `r` is the response of the first `Send`: its status and body, with the response headers queued
before it. -/
def IsFirstResponse (r : LocalResponseMut) (tr : List Obs) : Prop :=
  ∃ pre who statusCode body post,
    tr = pre ++ .user who r.sender (.send statusCode body) :: post ∧ NoSend pre ∧
      r = ⟨UInt32.ofInt statusCode, responseHeaders pre, body, r.sender⟩

/-- A rejection is final. -/
structure FinalRejection (tr : List Obs) : Prop where
  /-- `SendLocalResponse` is called at most once. -/
  once : tr.countP Obs.isResponse ≤ 1
  /-- It is called with the first `Send`. -/
  first : ∀ r detail, .call (.sendLocalResponse r detail) ∈ tr → IsFirstResponse r tr
  /-- After a `Send` nothing resumes or changes the request. -/
  final : Always (fun pre o => ¬ NoSend pre → o.undoesRejection = false) tr
  /-- A handler that `OnRequestHeaders` runs and that calls `Send` stops the request. -/
  headersStop : (∃ id statusCode body,
      .user (.worker .onRequestHeaders) id (.send statusCode body) ∈ tr) →
    ∀ st, .returned (.requestHeaders st) ∈ tr → st.stops = true
  /-- A handler that `OnRequestBody` runs and that calls `Send` stops the request. -/
  bodyStops : (∃ id statusCode body,
      .user (.worker .onRequestBody) id (.send statusCode body) ∈ tr) →
    ∀ st, .returned (.requestBody true st) ∈ tr → st.resumes = false

namespace State

/-- The handler calls `Send` from `OnRequestBody`. -/
def sendsFromBody (s : State) (l : Label) : Bool :=
  match s.mover l, s.nextAct l with
  | some (.worker .onRequestBody), .calls c => c.isSend
  | _, _ => false

/-- The step keeps a rejection final: it is not a `Send` from `OnRequestBody`, and it does not flush
a deferred response that has been sent. -/
def KeepsRejection (s : State) (l : Label) : Prop :=
  s.sendsFromBody l = false ∧
    (s.runsFlush l = true → s.writer.localResp.isSome = true →
      s.trace.countP Obs.isResponse = 0)

instance (s : State) (l : Label) : Decidable (s.KeepsRejection l) :=
  inferInstanceAs (Decidable (_ ∧ (_ → _ → _)))

end State

/-! ## The account of the response -/

@[simp] lemma responseHeaders_append (xs ys : List Obs) :
    responseHeaders (xs ++ ys) = responseHeaders xs ++ responseHeaders ys :=
  List.filterMap_append

lemma IsFirstResponse.append {r : LocalResponseMut} {tr obs : List Obs}
    (h : IsFirstResponse r tr) : IsFirstResponse r (tr ++ obs) := by
  obtain ⟨pre, who, statusCode, body, post, rfl, hsend, hr⟩ := h
  exact ⟨pre, who, statusCode, body, post ++ obs, by simp, hsend, hr⟩

/-- What relates the calls of `Send`, the deferred response and the responses on the handle. -/
structure ResponseAccount (g : Ledger) : Prop where
  sends : SendAccount g
  headers : g.writer.responded = false → g.writer.respHdrMuts = responseHeaders g.trace
  deferred : ∀ r, g.writer.localResp = some r → IsFirstResponse r g.trace
  first : ∀ r detail, .call (.sendLocalResponse r detail) ∈ g.trace → IsFirstResponse r g.trace
  unsent : g.writer.responded = false → g.trace.countP Obs.isResponse = 0
  once : g.trace.countP Obs.isResponse ≤ 1
  final : Always (fun pre o => ¬ NoSend pre → o.undoesRejection = false) g.trace

lemma quiet_response {obs : List Obs} (h : ∀ o ∈ obs, o.isQuiet = true) :
    responseHeaders obs = [] ∧ (∀ o ∈ obs, o.isResponse = false ∧ o.undoesRejection = false) := by
  constructor
  · rw [responseHeaders, List.filterMap_eq_nil_iff]
    intro o ho
    have := h o ho
    cases o <;> simp_all [Obs.responseHeader, Obs.isQuiet]
  · intro o ho
    have hq := h o ho
    cases o with
    | call c => cases c <;> simp_all [Obs.isResponse, Obs.undoesRejection, Obs.isQuiet,
        HandleCall.isQuiet]
    | _ => exact ⟨rfl, rfl⟩

namespace ResponseAccount

variable {g g' : Ledger}

lemma append (hg : ResponseAccount g) (w : Writer) (seq : ℕ) {obs : List Obs}
    (hsends : SendAccount { g with writer := w, seq := seq, trace := g.trace ++ obs })
    (hheaders : w.responded = false → w.respHdrMuts = g.writer.respHdrMuts ++ responseHeaders obs)
    (hresponded : w.responded = false → g.writer.responded = false)
    (hdeferred : ∀ r, w.localResp = some r →
      g.writer.localResp = some r ∨ IsFirstResponse r (g.trace ++ obs))
    (hobs : ∀ o ∈ obs, o.isResponse = false)
    (hfinal : Always (fun pre o => ¬ NoSend (g.trace ++ pre) → o.undoesRejection = false) obs) :
    ResponseAccount { g with writer := w, seq := seq, trace := g.trace ++ obs } := by
  have hcount : (g.trace ++ obs).countP Obs.isResponse = g.trace.countP Obs.isResponse := by
    have hnone : obs.countP Obs.isResponse = 0 := by
      rw [List.countP_eq_zero]
      intro o ho
      simp [hobs o ho]
    rw [List.countP_append, hnone, Nat.add_zero]
  exact
    { sends := hsends
      headers := fun hw => by
        rw [hheaders hw, hg.headers (hresponded hw), responseHeaders_append]
      deferred := fun r hr => (hdeferred r hr).elim (fun h => (hg.deferred r h).append) id
      first := fun r detail hmem => by
        rcases List.mem_append.mp hmem with hold | hnew
        · exact (hg.first r detail hold).append
        · exact absurd (hobs _ hnew) (by simp [Obs.isResponse])
      unsent := fun hw => hcount.trans (hg.unsent (hresponded hw))
      once := by
        rw [hcount]
        exact hg.once
      final := always_append.mpr ⟨hg.final, hfinal⟩ }

lemma append_inert (hg : ResponseAccount g) (w : Writer) (seq : ℕ) {obs : List Obs}
    (hsends : SendAccount { g with writer := w, seq := seq, trace := g.trace ++ obs })
    (hheaders : w.responded = false → w.respHdrMuts = g.writer.respHdrMuts ++ responseHeaders obs)
    (hresponded : w.responded = false → g.writer.responded = false)
    (hdeferred : ∀ r, w.localResp = some r →
      g.writer.localResp = some r ∨ IsFirstResponse r (g.trace ++ obs))
    (hobs : ∀ o ∈ obs, o.isResponse = false ∧ o.undoesRejection = false) :
    ResponseAccount { g with writer := w, seq := seq, trace := g.trace ++ obs } :=
  hg.append w seq hsends hheaders hresponded hdeferred (fun o ho => (hobs o ho).1)
    (always_of_forall fun o ho _ _ => (hobs o ho).2)

lemma quietly (hg : ResponseAccount g) (h : g.Quietly g') : ResponseAccount g' := by
  obtain ⟨obs, htr, hobs⟩ := h.trace
  obtain ⟨hheaders, hnone⟩ := quiet_response hobs
  have hg' : g' = { g with writer := g'.writer, seq := g'.seq, trace := g.trace ++ obs } := by
    rw [← htr, ← h.request]
  have hsends := hg.sends.quietly h
  rw [hg'] at hsends ⊢
  refine hg.append_inert _ _ hsends ?_ ?_ ?_ hnone
  · intro _
    rw [hheaders, List.append_nil, h.queues.respHdrMuts]
  · rw [h.queues.responded]
    exact id
  · intro r hr
    rw [h.queues.localResp] at hr
    exact .inl hr

lemma responseHeaders_calls (cs : List HandleCall) : responseHeaders (cs.map .call) = [] := by
  simp [responseHeaders, Obs.responseHeader]

/-- A call other than `Send` queues its response header, if it is one, and defers nothing; what it
calls on the handle neither responds nor undoes a rejection. -/
lemma userCall_of_not_send (w : Writer) (who : Actor) (id : CallId) {c : UserCall}
    (hc : c.isSend = false) :
    ((w.userCall id c).1.responded = false →
      (w.userCall id c).1.respHdrMuts = w.respHdrMuts ++ responseHeaders [.user who id c]) ∧
      (w.userCall id c).1.localResp = w.localResp ∧
      ∀ o ∈ (w.userCall id c).2.map Obs.call,
        o.isResponse = false ∧ o.undoesRejection = false := by
  have h := w.userCall_called id c
  generalize w.userCall id c = r at h ⊢
  cases h with
  | cancelled _ _ hresp => exact ⟨fun h => by simp [hresp] at h, rfl, by simp⟩
  | sends | defers => simp [UserCall.isSend] at hc
  | _ =>
      refine ⟨fun _ => ?_, rfl, by simp [Obs.isResponse, Obs.undoesRejection]⟩
      simp [Writer.queueMetric, responseHeaders, Obs.responseHeader]

lemma userCall_not_send (hg : ResponseAccount g) (who : Actor) {c : UserCall}
    (hc : c.isSend = false) : ResponseAccount (g.userCall who c) := by
  obtain ⟨hheaders, hlocal, hcalls⟩ := userCall_of_not_send g.writer who ⟨g.request, g.seq⟩ hc
  have hresp : (g.writer.userCall ⟨g.request, g.seq⟩ c).1.responded = g.writer.responded := by
    rw [Writer.userCall_responded, hc, Bool.or_false]
  refine hg.append_inert _ _ (hg.sends.userCall who c) ?_ ?_ ?_ ?_
  · intro hw
    rw [hheaders hw, List.append_cancel_left_eq]
    have := responseHeaders_append [.user who ⟨g.request, g.seq⟩ c]
      ((g.writer.userCall ⟨g.request, g.seq⟩ c).2.map .call)
    rw [responseHeaders_calls, List.append_nil] at this
    exact this.symm
  · rw [hresp]
    exact id
  · intro r hr
    rw [hlocal] at hr
    exact .inl hr
  · intro o ho
    rcases List.mem_cons.mp ho with rfl | ho
    · exact ⟨rfl, rfl⟩
    · exact hcalls o ho

/-- The first `Send` is sent at once or deferred; any later one does nothing. -/
lemma userCall_send (hg : ResponseAccount g) (who : Actor) (statusCode : ℤ) (body : Bytes) :
    ResponseAccount (g.userCall who (.send statusCode body)) := by
  let id : CallId := ⟨g.request, g.seq⟩
  let resp : LocalResponseMut := ⟨UInt32.ofInt statusCode, g.writer.respHdrMuts, body, id⟩
  have hfirst : ∀ post, g.writer.responded = false →
      IsFirstResponse resp (g.trace ++ .user who id (.send statusCode body) :: post) := by
    intro post hresp
    refine ⟨g.trace, who, statusCode, body, post, rfl, hg.sends.sends.mp hresp, ?_⟩
    rw [← hg.headers hresp]
  have hsends := hg.sends.userCall who (.send statusCode body)
  have hcall := g.writer.userCall_called id (.send statusCode body)
  simp only [Ledger.userCall] at hsends ⊢
  generalize g.writer.userCall id (.send statusCode body) = res at hcall hsends ⊢
  cases hcall with
  | cancelled _ _ hresp =>
      refine hg.append_inert _ _ hsends (fun h => ?_) (fun h => h) (fun r hr => .inl hr) ?_
      · simp [hresp] at h
      · simp [Obs.isResponse, Obs.undoesRejection]
  | defers _ _ hresp =>
      refine hg.append_inert _ _ hsends (fun h => by simp at h) (fun h => by simp at h) ?_ ?_
      · intro r hr
        obtain rfl : resp = r := Option.some.inj hr
        exact .inr (hfirst [] hresp)
      · simp [Obs.isResponse, Obs.undoesRejection]
  | sends _ _ hresp =>
      exact
        { sends := hsends
          headers := fun h => by simp at h
          deferred := fun r hr => (hg.deferred r hr).append
          first := fun r detail hmem => by
            rcases List.mem_append.mp hmem with hold | hnew
            · exact (hg.first r detail hold).append
            · obtain ⟨rfl, -⟩ : r = resp ∧ detail = ascii "sahl" := by simpa using hnew
              exact hfirst _ hresp
          unsent := fun h => by simp at h
          once := by
            simp [List.countP_append, hg.unsent hresp, List.countP_cons, Obs.isResponse]
          final := always_append.mpr
            ⟨hg.final, by simp [Obs.undoesRejection]⟩ }

lemma userCall (hg : ResponseAccount g) (who : Actor) (c : UserCall) :
    ResponseAccount (g.userCall who c) := by
  cases c with
  | send statusCode body => exact hg.userCall_send who statusCode body
  | _ => exact hg.userCall_not_send who rfl

/-- A flush of an open Writer comes before every `Send`. -/
lemma flush_open (hg : ResponseAccount g) (hrej : g.writer.rejected = false) (b : Bool) :
    ResponseAccount (g.flush b) := by
  have hnosend := hg.sends.noSend hrej
  refine hg.append g.writer g.seq (hg.sends.flush b) ?_ (fun h => h) (fun r hr => .inl hr) ?_ ?_
  · intro _
    have hheaders : responseHeaders (Obs.flushed b :: (g.writer.flush b).map .call) = [] :=
      responseHeaders_calls (g.writer.flush b)
    rw [hheaders, List.append_nil]
  · intro o ho
    rcases List.mem_cons.mp ho with rfl | ho
    · rfl
    · obtain ⟨c, hc, rfl⟩ := List.mem_map.mp ho
      rw [Writer.flush_open hrej] at hc
      rcases List.mem_append.mp hc with hc | hc
      · have := Writer.isMutation_of_mem hc
        cases c <;> simp_all [HandleCall.isMutation, Obs.isResponse]
      · cases b <;> simp_all [Obs.isResponse]
  · intro pre o post heq hsend
    refine absurd (noSend_append.mpr ⟨hnosend, fun o' ho' => ?_⟩) hsend
    have hmem : o' ∈ Obs.flushed b :: (g.writer.flush b).map .call := by
      rw [heq]
      exact List.mem_append_left _ ho'
    rcases List.mem_cons.mp hmem with rfl | hmem
    · rfl
    · exact noSend_calls _ o' hmem

/-- A flush of a rejected Writer sends the deferred response, if there is one. -/
lemma flush_rejected (hg : ResponseAccount g) (hrej : g.writer.rejected = true) (b : Bool)
    (hunsent : g.writer.localResp.isSome = true → g.trace.countP Obs.isResponse = 0) :
    ResponseAccount (g.flush b) := by
  have hsends := hg.sends.flush b
  have hresponded : g.writer.responded = true := by
    rcases Bool.or_eq_true_iff.mp hrej with h | h
    · exact hg.sends.localResp h
    · exact h
  cases hlocal : g.writer.localResp with
  | none =>
      have hflush : g.flush b = { g with trace := g.trace ++ [.flushed b] } := by
        simp [Ledger.flush, Ledger.emit, Writer.flush_rejected hrej, hlocal]
      rw [hflush] at hsends ⊢
      refine hg.append_inert g.writer g.seq hsends ?_ (fun h => h) (fun r hr => .inl hr) ?_
      · intro h
        simp [hresponded] at h
      · simp [Obs.isResponse, Obs.undoesRejection]
  | some resp =>
      have htr : (g.flush b).trace =
          g.trace ++ [.flushed b, .call (.sendLocalResponse resp (ascii "sahl"))] := by
        simp [Ledger.flush, Ledger.emit, Writer.flush_rejected hrej, hlocal]
      exact
        { sends := hsends
          headers := fun h => by
            rw [show (g.flush b).writer = g.writer from rfl, hresponded] at h
            simp at h
          deferred := fun r hr => (hg.deferred r hr).append
          first := fun r detail hmem => by
            rw [htr] at hmem ⊢
            rcases List.mem_append.mp hmem with hold | hnew
            · exact (hg.first r detail hold).append
            · obtain ⟨rfl, -⟩ : r = resp ∧ detail = ascii "sahl" := by simpa using hnew
              exact (hg.deferred r hlocal).append
          unsent := fun h => by
            rw [show (g.flush b).writer = g.writer from rfl, hresponded] at h
            simp at h
          once := by
            rw [htr, List.countP_append, hunsent (by simp [hlocal])]
            simp [List.countP_cons, Obs.isResponse]
          final := by
            rw [htr]
            exact always_append.mpr ⟨hg.final, by simp [Obs.undoesRejection]⟩ }

lemma flushResponseMutations (hg : ResponseAccount g) :
    ResponseAccount g.flushResponseMutations := by
  refine hg.append_inert g.writer.flushResponseMutations.1 g.seq
    hg.sends.flushResponseMutations ?_ (fun h => h) (fun r hr => .inl hr) ?_
  · intro _
    rw [responseHeaders_calls, List.append_nil]
    rfl
  · intro o ho
    obtain ⟨c, hc, rfl⟩ := List.mem_map.mp ho
    simp only [Writer.flushResponseMutations, List.mem_append, List.mem_map] at hc
    rcases hc with ⟨m, -, rfl⟩ | ⟨m, -, rfl⟩
    · exact ⟨rfl, rfl⟩
    · unfold Writer.counterCall
      split_ifs <;> exact ⟨rfl, rfl⟩

lemma acquireWriter {s : State} (hg : ResponseAccount s.toLedger) (hs : s.Untouched) :
    ResponseAccount s.toLedger.acquireWriter where
  sends := .acquireWriter hs
  headers _ := by
    have hheaders := hg.headers (by rw [hs.queues.responded]; rfl)
    rw [hs.queues.respHdrMuts] at hheaders
    exact hheaders
  deferred r hr := by simp [Ledger.acquireWriter, Ledger.setWriter, Writer.reset] at hr
  first := hg.first
  unsent _ := hg.unsent (by rw [hs.queues.responded]; rfl)
  once := hg.once
  final := hg.final

/-- A step that keeps a rejection final keeps the account. -/
lemma changes {s : State} {l : State.Label} {g : Ledger} (hg : ResponseAccount s.toLedger)
    (hshape : s.Shape) (hkeep : s.KeepsRejection l) (h : State.Changes s l g) :
    ResponseAccount g := by
  cases h with
  | quiet _ hq => exact hg.quietly hq
  | acquired _ hphase hq => exact (hg.acquireWriter (hshape.fresh hphase)).quietly hq
  | called who c => exact hg.userCall who c
  | @flushed g₁ g b hflush h₁ hq =>
      have hg₁ := hg.quietly h₁
      refine ResponseAccount.quietly ?_ hq
      cases hrej : g₁.writer.rejected with
      | false => exact hg₁.flush_open hrej b
      | true =>
          refine hg₁.flush_rejected hrej b fun hlocal => ?_
          rw [h₁.queues.localResp] at hlocal
          obtain ⟨obs, htr, hobs⟩ := h₁.trace
          have hcount : obs.countP Obs.isResponse = 0 := by
            rw [List.countP_eq_zero]
            intro o ho
            simp [((quiet_response hobs).2 o ho).1]
          rw [htr, List.countP_append, hcount, hkeep.2 hflush hlocal]
  | responseFlushed _ _ _ hq => exact hg.flushResponseMutations.quietly hq

end ResponseAccount

/-! ## The statuses -/

namespace State

/-- What holds while rejections are kept final. -/
structure RejectionInv (s : State) : Prop where
  shape : s.Shape
  account : ResponseAccount s.toLedger
  running : .onRequestHeaders ∈ s.callbacks → ∀ st, .returned (.requestHeaders st) ∉ s.trace
  headersStop : ∀ id statusCode body,
    .user (.worker .onRequestHeaders) id (.send statusCode body) ∈ s.trace →
      ∀ st, .returned (.requestHeaders st) ∈ s.trace → st.stops = true
  bodySend : ∀ id statusCode body,
    .user (.worker .onRequestBody) id (.send statusCode body) ∉ s.trace

namespace RejectionInv

variable {s s' : State} {l : Label}

lemma running_step (hI : s.RejectionInv) (hm : Moves s l s')
    (hmem : .onRequestHeaders ∈ s'.callbacks) (st : HeadersStatus) :
    .returned (.requestHeaders st) ∉ s'.trace := by
  intro hret
  rcases hm.mem_trace hret with hprev | ⟨hphase, hbody, -⟩ | ⟨hfin, -⟩
  · rcases hm.mem_callbacks hmem with h | ⟨-, hphase, -⟩
    · exact hI.running h st hprev
    · simpa [Obs.isPrelude] using (hI.shape.fresh hphase).prelude _ hprev
  · rcases hm.mem_callbacks hmem with h | ⟨-, -, hnot⟩
    · obtain ⟨f, hf, hcb⟩ := List.mem_map.mp h
      have := ((hI.shape.fresh hphase).observers f hf).1
      simp [hcb, Callback.isObserver] at this
    · simp [hnot] at hbody
  · have hall := hI.shape.finishes_stack hfin
    obtain ⟨rest, hstack, rfl⟩ := hm.finishes hfin
    obtain rfl : rest = [] := by rw [hstack] at hall; exact (List.cons.inj hall).2
    simp [callbacks, (finish_sameHost _ _).stack] at hmem

lemma headersStop_step (hI : s.RejectionInv) (hm : Moves s l s') {id : CallId} {statusCode : ℤ}
    {body : Bytes} (hsend : .user (.worker .onRequestHeaders) id (.send statusCode body) ∈ s'.trace)
    (st : HeadersStatus) (hret : .returned (.requestHeaders st) ∈ s'.trace) : st.stops = true := by
  rcases hm.mem_trace hret with hprev | ⟨-, -, rfl⟩ | ⟨hfin, rfl⟩
  · rcases hm.mem_trace hsend with hsend | ⟨hmover, -⟩
    · exact hI.headersStop id statusCode body hsend st hprev
    · exact absurd hprev (hI.running (mem_callbacks_of_mover hmover) st)
  · rfl
  · have hprev : .user (.worker .onRequestHeaders) id (.send statusCode body) ∈ s.trace := by
      refine (hm.mem_trace hsend).resolve_right fun hemits => ?_
      obtain ⟨c, rest, rfl, hstack⟩ := hfin
      simpa [nextAct, hstack, act] using hemits.2
    have hresp : s.writer.responded = true := by
      by_contra hno
      have := hI.account.sends.sends.mp (eq_false_of_ne_true hno) _ hprev
      simp [Obs.isSend, UserCall.isSend] at this
    simp [headersStatus, hresp, HeadersStatus.stops]

lemma bodySend_step (hI : s.RejectionInv) (hkeep : s.KeepsRejection l) (hm : Moves s l s')
    (id : CallId) (statusCode : ℤ) (body : Bytes) :
    .user (.worker .onRequestBody) id (.send statusCode body) ∉ s'.trace := by
  intro hmem
  rcases hm.mem_trace hmem with hprev | ⟨hmover, hact⟩
  · exact hI.bodySend id statusCode body hprev
  · have := hkeep.1
    simp [sendsFromBody, hmover, hact, UserCall.isSend] at this

lemma step (hI : s.RejectionInv) (hkeep : s.KeepsRejection l) (h : s.step l = some s') :
    s'.RejectionInv := by
  have hm := step_moves h
  exact
    { shape := shape_step hI.shape h
      account := hI.account.changes hI.shape hkeep hm.changes
      running := hI.running_step hm
      headersStop := fun _ _ _ hsend st hret => hI.headersStop_step hm hsend st hret
      bodySend := hI.bodySend_step hkeep hm }

lemma new (r : ℕ) (d : FilterDef) : (State.new r d).RejectionInv where
  shape := shape_new r d
  account :=
    { sends := .new r d
      headers := fun _ => rfl
      deferred := by simp [State.new, Writer.zero]
      first := by simp [State.new]
      unsent := by simp [State.new]
      once := by simp [State.new]
      final := always_nil }
  running := by simp [State.new]
  headersStop := by simp [State.new]
  bodySend := by simp [State.new]

lemma final (hI : s.RejectionInv) : FinalRejection s.trace where
  once := hI.account.once
  first := hI.account.first
  final := hI.account.final
  headersStop := fun ⟨id, statusCode, body, hsend⟩ => hI.headersStop id statusCode body hsend
  bodyStops := fun ⟨id, statusCode, body, hsend⟩ =>
    absurd hsend (hI.bodySend id statusCode body)

end RejectionInv

end State

/-! ## Whole runs -/

/-- **A rejection is final** in every run in which no handler rejects from `OnRequestBody` and no
flush comes after the one that sends a deferred response. -/
theorem finalRejection_of_keepsRejection (r : ℕ) (d : FilterDef) (ls : List State.Label) (s : State)
    (hrun : run State.step (State.new r d) ls = some s)
    (hkeep : Along State.step State.KeepsRejection (State.new r d) ls) : FinalRejection s.trace :=
  (run_invariant_of_along (I := State.RejectionInv) (fun _ _ _ hI hC h => hI.step hC h)
    (.new r d) hkeep hrun).final

/-- A body-aware filter that rejects every request. -/
def rejectBody : FilterDef where
  handler := .call (.send 403 (ascii "forbidden")) .ret
  bodyAware := true

/-- The body arrives in one piece and the handler runs. -/
def bodyInOnePiece : List State.Label :=
  [.requestHeaders false, .requestBody true, .worker {}, .worker {}]

/-- A handler that starts a callout and a goroutine, where the goroutine rejects the request. -/
def calloutThenRejectingGo : FilterDef where
  handler := .httpCallout { cluster := ascii "auth", headers := [], body := [], timeoutMs := 250 }
    (fun _ _ _ => .ret) fun _ => .go (.call (.send 503 (ascii "unavailable")) .ret) fun _ => .ret

/-- The goroutine ends first and its flush sends the response; then the callout ends. -/
def rejectedTwice : List State.Label :=
  [.requestHeaders false, .worker {}, .worker {}, .worker {}, .worker {}, .goroutine {},
    .goroutine {}, .task 0 {}, .calloutDone 0 .success [] [], .worker {}]

/-- `OnRequestBody` lets a request go on that its handler has rejected, and the flush of a callout
repeats the response that a goroutine has deferred. -/
theorem rejection_not_final :
    (¬ ∀ (r : ℕ) (d : FilterDef) (ls : List State.Label) (s : State),
      run State.step (State.new r d) ls = some s → FinalRejection s.trace) ∧
    ∃ s, run State.step (State.new 0 calloutThenRejectingGo) rejectedTwice = some s ∧
      s.trace.countP Obs.isResponse = 2 := by
  refine ⟨fun h => ?_, _, rfl, by decide⟩
  have hstops := (h 0 rejectBody bodyInOnePiece _ rfl).bodyStops
    ⟨⟨0, 0⟩, 403, ascii "forbidden", by decide⟩ .statusContinue (by decide)
  simp [BodyStatus.resumes] at hstops

/-- A filter that rejects every request from `OnRequestHeaders`. -/
def rejectHeaders : FilterDef where
  handler := .call (.send 403 (ascii "forbidden")) .ret

/-- A request without a body arrives and the handler runs. -/
def headersOnlyRequest : List State.Label := [.requestHeaders true, .worker {}, .worker {}]

/-- The result applied to a request that is rejected from `OnRequestHeaders`. -/
theorem finalRejection_rejectHeaders :
    ∃ s, run State.step (State.new 0 rejectHeaders) headersOnlyRequest = some s ∧
      FinalRejection s.trace :=
  ⟨_, rfl, finalRejection_of_keepsRejection 0 rejectHeaders headersOnlyRequest _ rfl (by decide)⟩

end Luwes.Sahl
