import Luwes.Sahl.FlowControl

/-!
# Handlers that decide at once

Many handlers start nothing: they read the request, call methods of the Writer that return at once, and
return.  Such a handler is the list of its calls, and `view` is what the host then sees of the request: what
is called on the handle, in order, and the status of `OnRequestHeaders`.

In every run of the filter the host has seen a beginning of this, and all of it when the handler has
returned; nothing that happens to the request later adds to it (`straight_run`).  A handler in a `Chain` of
middlewares is again a list of calls, the middlewares around it like the skins of an onion
(`middleware_run`).
-/

namespace Luwes.Sahl

open LabelledRun

/-- The code that makes these calls. -/
def straight : List UserCall → Prog
  | [] => .ret
  | c :: cs => .call c (straight cs)

/-- A program and then another, unless the first one panics. -/
def Prog.seq : Prog → Prog → Prog
  | .ret, q => q
  | .panic, _ => .panic
  | .observe k, q => .observe fun n => (k n).seq q
  | .call c p, q => .call c (p.seq q)
  | .go fn k, q => .go fn fun o => (k o).seq q
  | .httpCallout req fn k, q => .httpCallout req fn fun o => (k o).seq q
  | .httpStream req fn k, q => .httpStream req fn fun o => (k o).seq q
  | .doCallout req k, q => .doCallout req fun o => (k o).seq q

lemma straight_seq (cs ds : List UserCall) : (straight cs).seq (straight ds) = straight (cs ++ ds) := by
  induction cs with
  | nil => rfl
  | cons c cs ih => rw [straight, Prog.seq, ih, List.cons_append, straight]

/-! ## Middleware (`sahl/sahl.go`) -/

/-- `Middleware`. -/
abbrev Middleware := HandlerFunc → HandlerFunc

/-- `Chain`; the loop goes from the last middleware to the first. -/
def chain (h : HandlerFunc) (mw : List Middleware) : HandlerFunc := mw.reverse.foldl (fun h m => m h) h

/-- What a middleware that starts nothing does: its calls before `next`, whether it calls `next`, and its
calls after. -/
structure Layer where
  pre : List UserCall
  handsOn : Bool
  post : List UserCall

/-- The middleware. -/
def Layer.middleware (l : Layer) : Middleware := fun next =>
  ((straight l.pre).seq (if l.handsOn then next else .ret)).seq (straight l.post)

/-- The calls of a handler in its layers, from the outside in. -/
def onion : List Layer → List UserCall → List UserCall
  | [], cs => cs
  | l :: ls, cs => l.pre ++ (if l.handsOn then onion ls cs else []) ++ l.post

/-- The first middleware is the outermost. -/
lemma chain_cons (h : HandlerFunc) (m : Middleware) (mw : List Middleware) :
    chain h (m :: mw) = m (chain h mw) := by
  simp [chain]

lemma chain_straight (ls : List Layer) (cs : List UserCall) :
    chain (straight cs) (ls.map (·.middleware)) = straight (onion ls cs) := by
  induction ls with
  | nil => rfl
  | cons l ls ih =>
      rw [List.map_cons, chain_cons, ih, Layer.middleware, onion]
      cases l.handsOn with
      | true => rw [if_pos rfl, if_pos rfl, straight_seq, straight_seq]
      | false =>
          rw [if_neg Bool.false_ne_true, if_neg Bool.false_ne_true, ← straight_seq, ← straight_seq]
          rfl

/-! ## What the host sees -/

/-- A call on the handle without the identities of the calls that have queued it, or the status that
`OnRequestHeaders` returns. -/
inductive HostEvent
  | setRequestHeader (m : HeaderMut)
  | setMetadata (m : MetaMut)
  | clearRouteCache
  | metric (m : CounterMut)
  | sendLocalResponse (statusCode : UInt32) (headers : List HeaderMut) (body : Bytes) (detail : GoString)
  | other (c : HandleCall)
  | headersStatus (st : HeadersStatus)
  deriving DecidableEq, Repr

/-- The call as the host sees it. -/
def HandleCall.event : HandleCall → HostEvent
  | .headerSet m => .setRequestHeader m.val
  | .setMetadata m => .setMetadata m.val
  | .clearRouteCache => .clearRouteCache
  | .recordHistogramValue m | .incrementCounterValue m => .metric m.val
  | .sendLocalResponse r detail => .sendLocalResponse r.statusCode (r.headers.map (·.val)) r.body detail
  | c => .other c

/-- What the host sees of an event of a run. -/
def Obs.event : Obs → Option HostEvent
  | .call c => some c.event
  | .returned (.requestHeaders st) => some (.headersStatus st)
  | _ => none

/-- What the host has seen. -/
def hostView (tr : List Obs) : List HostEvent := tr.filterMap Obs.event

@[simp] lemma hostView_append (xs ys : List Obs) : hostView (xs ++ ys) = hostView xs ++ hostView ys :=
  List.filterMap_append

lemma hostView_calls (cs : List HandleCall) : hostView (cs.map .call) = cs.map (·.event) := by
  rw [hostView, List.filterMap_map]
  exact congrFun List.filterMap_eq_map cs

/-- A local reply. -/
def HostEvent.isLocalResponse : HostEvent → Bool
  | .sendLocalResponse _ _ _ _ => true
  | _ => false

/-- How many local replies the calls send. -/
def sends (cs : List HandleCall) : ℕ := (cs.map (·.event)).countP HostEvent.isLocalResponse

lemma sends_append (xs ys : List HandleCall) : sends (xs ++ ys) = sends xs + sends ys := by
  rw [sends, List.map_append, List.countP_append]
  rfl

namespace Writer

/-- The Writer that `OnRequestHeaders` takes. -/
def start (r : ℕ) : Writer := { zero.reset r r with calloutCB := some r, streamCB := some r }

/-- A list of calls, the first of which is the `n`-th of request `r`. -/
def calls (r : ℕ) : ℕ → Writer → List UserCall → Writer × List HandleCall
  | _, w, [] => (w, [])
  | n, w, c :: cs =>
    let x := w.userCall ⟨r, n⟩ c
    let y := calls r (n + 1) x.1 cs
    (y.1, x.2 ++ y.2)

/-- The two differ in the details of a local reply at most. -/
def Agrees (w w' : Writer) : Prop := w' = { w with localReplyDetails := w'.localReplyDetails }

/-- Nothing has been started and no response is deferred. -/
structure AtOnce (w : Writer) : Prop where
  async : w.asyncStarted = false
  localResp : w.localResp = none

end Writer

/-- What the host sees of a request whose handler makes these calls. -/
def view (r : ℕ) (cs : List UserCall) : List HostEvent :=
  let x := (Writer.start r).calls r 0 cs
  (x.2 ++ x.1.flush false).map (·.event) ++
    [.headersStatus (if x.1.responded then .statusStop else .statusContinue)]

namespace Writer

variable {w w' : Writer} {r n : ℕ}

/-! ## The calls -/

lemma Agrees.userCall (h : w.Agrees w') (id : CallId) (c : UserCall) :
    (w'.userCall id c).2 = (w.userCall id c).2 ∧ (w.userCall id c).1.Agrees (w'.userCall id c).1 := by
  obtain ⟨d, rfl⟩ : ∃ d, w' = { w with localReplyDetails := d } := ⟨_, h⟩
  cases c with
  | send =>
      simp only [Writer.userCall, sendBytes]
      split_ifs <;> exact ⟨rfl, rfl⟩
  | setResponseHeader | setRequestHeader | setMetadata =>
      refine ⟨rfl, ?_⟩
      simp only [Writer.userCall, Writer.setResponseHeader, Writer.setRequestHeader, Writer.setMetadata]
      split_ifs <;> rfl
  | _ => exact ⟨rfl, rfl⟩

lemma Agrees.trans {w₁ w₂ w₃ : Writer} (h : w₁.Agrees w₂) (h' : w₂.Agrees w₃) : w₁.Agrees w₃ := by
  rw [Agrees, h', h]

lemma Agrees.flush (h : w.Agrees w') (b : Bool) : w'.flush b = w.flush b := by
  rw [h]
  rfl

lemma Agrees.responded (h : w.Agrees w') : w'.responded = w.responded := by rw [h]

lemma AtOnce.goStarted (h : w.AtOnce) : w.goStarted = false := by
  have hasync := h.async
  simp only [asyncStarted, Bool.or_eq_false_iff] at hasync
  exact hasync.1.1

lemma AtOnce.userCall (h : w.AtOnce) (id : CallId) (c : UserCall) : (w.userCall id c).1.AtOnce := by
  have hgo := h.goStarted
  obtain ⟨hasync, hresp⟩ := h
  cases c with
  | send =>
      rw [Writer.userCall, sendBytes]
      split_ifs with _ hstarted
      · exact ⟨hasync, hresp⟩
      · rw [hgo] at hstarted
        cases hstarted
      · exact ⟨hasync, hresp⟩
  | setResponseHeader | setRequestHeader | setMetadata =>
      simp only [Writer.userCall, Writer.setResponseHeader, Writer.setRequestHeader, Writer.setMetadata]
      split_ifs <;> exact ⟨hasync, hresp⟩
  | _ => exact ⟨hasync, hresp⟩

lemma atOnce_start (r : ℕ) : (start r).AtOnce := ⟨rfl, rfl⟩

lemma AtOnce.of_agrees (h : w.AtOnce) (hagrees : w.Agrees w') : w'.AtOnce := by
  obtain ⟨hasync, hresp⟩ := h
  rw [hagrees]
  exact ⟨hasync, hresp⟩

lemma AtOnce.calls (h : w.AtOnce) (cs : List UserCall) : (w.calls r n cs).1.AtOnce := by
  induction cs generalizing w n with
  | nil => exact h
  | cons c cs ih => exact ih (h.userCall _ _)

lemma calls_append (cs ds : List UserCall) :
    w.calls r n (cs ++ ds) =
      (((w.calls r n cs).1.calls r (n + cs.length) ds).1,
        (w.calls r n cs).2 ++ ((w.calls r n cs).1.calls r (n + cs.length) ds).2) := by
  induction cs generalizing w n with
  | nil => rfl
  | cons c cs ih =>
      rw [List.cons_append, calls, ih]
      simp [calls, Nat.add_comm, Nat.add_left_comm]

lemma calls_concat (cs : List UserCall) (c : UserCall) :
    w.calls r n (cs ++ [c]) =
      (((w.calls r n cs).1.userCall ⟨r, n + cs.length⟩ c).1,
        (w.calls r n cs).2 ++ ((w.calls r n cs).1.userCall ⟨r, n + cs.length⟩ c).2) := by
  rw [calls_append]
  simp [calls]

/-- A call sends a response exactly when the Writer responds in it. -/
lemma AtOnce.sends_userCall (h : w.AtOnce) (id : CallId) (c : UserCall) :
    sends (w.userCall id c).2 + w.responded.toNat = (w.userCall id c).1.responded.toNat := by
  have hgo : w.goStarted = false := h.goStarted
  cases c with
  | send =>
      rw [Writer.userCall, sendBytes]
      split_ifs with hresponded hstarted
      · simp [sends]
      · rw [hgo] at hstarted
        cases hstarted
      · simp [sends, HandleCall.event, HostEvent.isLocalResponse, hresponded]
  | setResponseHeader | setRequestHeader | setMetadata =>
      simp only [Writer.userCall, Writer.setResponseHeader, Writer.setRequestHeader, Writer.setMetadata]
      split_ifs <;> simp [sends]
  | _ => simp [Writer.userCall, sends, HandleCall.event, HostEvent.isLocalResponse, clearRouteCache,
      incrementCounter, recordHistogram, queueMetric]

lemma AtOnce.sends_calls (h : w.AtOnce) (cs : List UserCall) :
    sends (w.calls r n cs).2 + w.responded.toNat = (w.calls r n cs).1.responded.toNat := by
  induction cs generalizing w n with
  | nil => simp [Writer.calls, sends]
  | cons c cs ih =>
      have hfirst := h.sends_userCall ⟨r, n⟩ c
      have hrest := ih (n := n + 1) (h.userCall ⟨r, n⟩ c)
      rw [Writer.calls, sends_append]
      dsimp only
      omega

lemma releases_userCall {id : CallId} {c : UserCall} {call : HandleCall} (h : call ∈ (w.userCall id c).2) :
    (Obs.call call).releases = false := by
  cases c with
  | send =>
      rw [Writer.userCall, sendBytes] at h
      split_ifs at h
      · cases h
      · cases h
      · obtain rfl := List.mem_singleton.mp h
        rfl
  | setResponseBody | appendResponseBody =>
      obtain rfl := List.mem_singleton.mp h
      rfl
  | _ => cases h

lemma event_counterCall (m : Queued CounterMut) : (counterCall m).event = .metric m.val := by
  unfold counterCall
  split_ifs <;> rfl

lemma AtOnce.sends_flush (h : w.AtOnce) : sends (w.flush false) = 0 := by
  rw [Writer.flush, h.localResp]
  cases w.responded with
  | true => rfl
  | false =>
      have hroute : sends (if w.routeCleared then [.clearRouteCache] else []) = 0 := by
        cases w.routeCleared <;> rfl
      have hheaders : sends (w.reqMuts.map .headerSet) = 0 := by
        simp [sends, HandleCall.event, HostEvent.isLocalResponse]
      have hmeta : sends (w.metaMuts.map .setMetadata) = 0 := by
        simp [sends, HandleCall.event, HostEvent.isLocalResponse]
      have hmetrics : sends (w.counterMuts.map counterCall) = 0 := by
        simp [sends, event_counterCall, HostEvent.isLocalResponse]
      simp [sends_append, hroute, hheaders, hmeta, hmetrics]

end Writer

/-- The handler has responded. -/
def answers (r : ℕ) (cs : List UserCall) : Bool := ((Writer.start r).calls r 0 cs).1.responded

/-- **A handler that decides at once answers or lets the request pass.**  It sends at most one local reply,
and `OnRequestHeaders` stops the request exactly when it has sent one. -/
lemma view_answers (r : ℕ) (cs : List UserCall) :
    (view r cs).countP HostEvent.isLocalResponse = (answers r cs).toNat ∧
      ∀ st, .headersStatus st ∈ view r cs ↔ st = if answers r cs then .statusStop else .statusContinue := by
  have hcalls := (Writer.atOnce_start r).sends_calls (r := r) (n := 0) cs
  have hflush := (Writer.AtOnce.calls (r := r) (n := 0) (Writer.atOnce_start r) cs).sends_flush
  refine ⟨?_, fun st => ?_⟩
  · calc (view r cs).countP HostEvent.isLocalResponse
        = sends (((Writer.start r).calls r 0 cs).2 ++ ((Writer.start r).calls r 0 cs).1.flush false) + 0 :=
          List.countP_append
      _ = (answers r cs).toNat := by
          rw [sends_append, hflush]
          exact hcalls
  · rw [view, List.mem_append, List.mem_singleton, HostEvent.headersStatus.injEq, answers]
    refine or_iff_right fun hmem => ?_
    obtain ⟨c, -, hc⟩ := List.mem_map.mp hmem
    cases c <;> cases hc

/-! ## A run -/

namespace State

/-- The request has gone on from this filter. -/
def released (s : State) : Bool := s.trace.any Obs.releases

/-- Where the request is. -/
inductive Stage (r : ℕ) (cs : List UserCall) (s : State) : Prop
  /-- Before `OnRequestHeaders`. -/
  | before (hphase : s.phase = .awaitingHeaders) (hstack : s.stack = []) (hview : hostView s.trace = [])
      (hheld : s.released = false) (hseq : s.seq = 0)
  /-- The handler has made the calls `done`. -/
  | running (done rest : List UserCall) (hcs : cs = done ++ rest) (hphase : s.phase ≠ .awaitingHeaders)
      (hstack : s.stack = [⟨.prog (straight rest), .onRequestHeaders⟩]) (hwriter : s.hasWriter = true)
      (hagrees : ((Writer.start r).calls r 0 done).1.Agrees s.writer)
      (hview : hostView s.trace = ((Writer.start r).calls r 0 done).2.map (·.event))
      (hheld : s.released = false) (hseq : s.seq = done.length)
  /-- The handler has returned. -/
  | answered (hphase : s.phase ≠ .awaitingHeaders) (hstack : s.stack = [])
      (hview : hostView s.trace = view r cs)

/-- A request whose handler makes the calls `cs`, with no response observer: nothing runs beside it. -/
structure Deciding (r : ℕ) (cs : List UserCall) (s : State) : Prop where
  filterDef : s.filterDef = { handler := straight cs }
  request : s.request = r
  goroutine : s.goroutine = none
  tasks : s.tasks = []
  callouts : s.calloutIds = []
  streams : s.streams = []
  stage : s.Stage r cs

lemma deciding_new (r : ℕ) (cs : List UserCall) :
    (State.new r { handler := straight cs }).Deciding r cs where
  filterDef := rfl
  request := rfl
  goroutine := rfl
  tasks := rfl
  callouts := rfl
  streams := rfl
  stage := .before rfl rfl rfl rfl rfl

variable {r : ℕ} {cs : List UserCall} {s s' : State}

/-- Nothing that the host sees has happened, and the request goes on from where it was. -/
structure Quiet (s s' : State) : Prop where
  filterDef : s'.filterDef = s.filterDef
  request : s'.request = s.request
  goroutine : s'.goroutine = s.goroutine
  tasks : s'.tasks = s.tasks
  callouts : s.calloutIds = [] → s'.calloutIds = []
  streams : s'.streams = s.streams
  phase : s'.phase = .awaitingHeaders ↔ s.phase = .awaitingHeaders
  stack : s'.stack = s.stack
  trace : ∃ obs, s'.trace = s.trace ++ obs ∧
    ∀ o ∈ obs, o.event = none ∧ (s.phase = .awaitingHeaders ∨ s.stack ≠ [] → o.releases = false)
  seq : s'.seq = s.seq
  busy : s.stack ≠ [] → s'.hasWriter = s.hasWriter ∧ s.writer.Agrees s'.writer

lemma Quiet.view (hq : s.Quiet s') : hostView s'.trace = hostView s.trace := by
  obtain ⟨obs, htr, hobs⟩ := hq.trace
  have hnone : hostView obs = [] := List.filterMap_eq_nil_iff.mpr fun o ho => (hobs o ho).1
  rw [htr, hostView_append, hnone, List.append_nil]

lemma released_append {obs : List Obs} (h : ∀ o ∈ obs, o.releases = false) (tr : List Obs) :
    (tr ++ obs).any Obs.releases = tr.any Obs.releases := by
  have hnone : obs.any Obs.releases = false := List.any_eq_false.mpr fun o ho => by simp [h o ho]
  rw [List.any_append, hnone, Bool.or_false]

lemma Quiet.released (hq : s.Quiet s') (hbusy : s.phase = .awaitingHeaders ∨ s.stack ≠ []) :
    s'.released = s.released := by
  obtain ⟨obs, htr, hobs⟩ := hq.trace
  rw [State.released, htr]
  exact released_append (fun o ho => (hobs o ho).2 hbusy) _

lemma Deciding.quiet (h : s.Deciding r cs) (hq : s.Quiet s') : s'.Deciding r cs where
  filterDef := hq.filterDef.trans h.filterDef
  request := hq.request.trans h.request
  goroutine := hq.goroutine.trans h.goroutine
  tasks := hq.tasks.trans h.tasks
  callouts := hq.callouts h.callouts
  streams := hq.streams.trans h.streams
  stage := by
    cases h.stage with
    | before hphase hstack hview hheld hseq =>
        exact .before (hq.phase.mpr hphase) (hq.stack.trans hstack) (hq.view.trans hview)
          ((hq.released (.inl hphase)).trans hheld) (hq.seq.trans hseq)
    | running done rest hcs hphase hstack hwriter hagrees hview hheld hseq =>
        have hbusy : s.stack ≠ [] := by simp [hstack]
        obtain ⟨hwriter', hagrees'⟩ := hq.busy hbusy
        exact .running done rest hcs (mt hq.phase.mp hphase) (hq.stack.trans hstack)
          (hwriter'.trans hwriter) (hagrees.trans hagrees') (hq.view.trans hview)
          ((hq.released (.inr hbusy)).trans hheld) (hq.seq.trans hseq)
    | answered hphase hstack hview =>
        exact .answered (mt hq.phase.mp hphase) (hq.stack.trans hstack) (hq.view.trans hview)

/-- The end of `OnRequestHeaders`, when the handler has started nothing. -/
lemma finish_atOnce (h : s.writer.AtOnce) : ∃ obs, s.finish .onRequestHeaders = s.emit obs ∧
    hostView obs = (s.writer.flush false).map (·.event) ++
      [.headersStatus (if s.writer.responded then .statusStop else .statusContinue)] := by
  rw [finish, onRequestHeadersTail, h.async]
  cases hr : s.writer.responded with
  | false =>
      refine ⟨(.flushed false :: (s.writer.flush false).map .call) ++
        [.returned (.requestHeaders .statusContinue)], ?_, ?_⟩
      · simp [ret, State.flush, Ledger.flush, emit, Ledger.emit]
      · rw [hostView_append, ← hostView_calls]
        rfl
  | true =>
      have hnone : s.writer.flush false = [] := by simp [Writer.flush, h.localResp, hr]
      refine ⟨[.returned (.requestHeaders .statusStop)], rfl, ?_⟩
      rw [hnone]
      rfl

lemma Deciding.worker (h : s.Deciding r cs) {c : Choice} (hstep : s.step (.worker c) = some s') :
    s'.Deciding r cs := by
  cases h.stage with
  | before _ hstack | answered _ hstack =>
      rw [State.step, hstack] at hstep
      cases hstep
  | running done rest hcs hphase hstack hwriter hagrees hview hheld hseq =>
      rw [State.step, hstack] at hstep
      cases rest with
      | nil =>
          obtain rfl := Option.some.inj hstep
          rw [List.append_nil] at hcs
          subst hcs
          have hatOnce := (Writer.AtOnce.calls (n := 0) (Writer.atOnce_start r) cs).of_agrees hagrees
          obtain ⟨obs, heq, hobs⟩ := finish_atOnce (s := { s with stack := [] }) hatOnce
          rw [heq]
          refine { h with stage := .answered hphase rfl ?_ }
          calc hostView (s.trace ++ obs) = _ := by rw [hostView_append, hview, hobs]
            _ = view r cs := by
                rw [view, ← List.append_assoc, List.map_append, hagrees.flush false, hagrees.responded]
      | cons call rest =>
          have hnil : s.nilWriter (.call call (straight rest)) = false := by
            cases call <;> simp [nilWriter, hwriter]
          simp only [workerStep, straight, hnil, op, Option.map_some] at hstep
          obtain rfl := Option.some.inj hstep
          obtain ⟨rs, heq⟩ := userCall_eq s (.worker .onRequestHeaders) call
          obtain ⟨hcalls, hagrees'⟩ := hagrees.userCall ⟨r, done.length⟩ call
          have hid : (⟨s.request, s.seq⟩ : CallId) = ⟨r, done.length⟩ := by rw [h.request, hseq]
          have hconcat := Writer.calls_concat (w := Writer.start r) (r := r) (n := 0) done call
          rw [Nat.zero_add] at hconcat
          rw [heq]
          refine { h with
            stage := .running (done ++ [call]) rest (by simp [hcs]) hphase rfl hwriter ?_ ?_ ?_ ?_ }
          · rw [hconcat]
            change Writer.Agrees _ (s.writer.userCall ⟨s.request, s.seq⟩ call).1
            rw [hid]
            exact hagrees'
          · calc hostView (s.trace ++ .user _ ⟨s.request, s.seq⟩ call ::
                  (s.writer.userCall ⟨s.request, s.seq⟩ call).2.map .call)
                = hostView s.trace ++ hostView ((s.writer.userCall ⟨s.request, s.seq⟩ call).2.map .call) :=
                  hostView_append _ _
              _ = _ := by rw [hid, hcalls, hconcat, hview, List.map_append, hostView_calls]
          · refine (released_append ?_ _).trans hheld
            rintro o (_ | ⟨_, ho⟩)
            · rfl
            · obtain ⟨c', hc', rfl⟩ := List.mem_map.mp ho
              exact Writer.releases_userCall hc'
          · change s.seq + 1 = _
            rw [hseq, List.length_append, List.length_singleton]

lemma Deciding.step (h : s.Deciding r cs) {l : Label} (hstep : s.step l = some s') :
    s'.Deciding r cs := by
  have hdef := h.filterDef
  have hidle (hacc : s.accepting = true) (hne : s.stack ≠ []) :
      s'.hasWriter = s.hasWriter ∧ s.writer.Agrees s'.writer := absurd (accepting_stack hacc) hne
  cases step_moves hstep with
  | headersDeferred eos hacc hphase hbody => simp [hdef] at hbody
  | headersHandled eos hacc hphase hbody =>
      cases h.stage with
      | before _ hstack hview hheld hseq =>
          refine { h with stage := .running [] cs rfl ?_ ?_ rfl ?_ ?_ ?_ hseq }
          · cases eos <;> simp
          · rw [hstack, hdef]
          · rw [← h.request]
            rfl
          · have hnew : hostView (s.trace ++ [.invoked .onRequestHeaders]) = hostView s.trace :=
              (hostView_append _ _).trans (List.append_nil _)
            exact hnew.trans hview
          · exact (released_append (by simp [Obs.releases, Obs.resumes]) _).trans hheld
      | running _ _ _ hne | answered hne => exact absurd hphase hne
  | bodyHandled hacc hphase hbody => simp [hdef] at hbody
  | bodyBuffered hacc hphase hbody => simp [hdef] at hbody
  | bodyPassed endStream bodyDone hacc hphase hbody =>
      refine h.quiet ⟨rfl, rfl, rfl, rfl, id, rfl, ?_, rfl, ⟨_, rfl, ?_⟩, rfl, hidle hacc⟩
      · cases endStream <;> simp [hphase]
      · simp [Obs.event, hphase, accepting_stack hacc]
  | trailersPassed hacc hphase =>
      refine h.quiet ⟨rfl, rfl, rfl, rfl, id, rfl, by simp [hphase], rfl, ⟨_, rfl, ?_⟩, rfl, hidle hacc⟩
      simp [Obs.event, hphase, accepting_stack hacc]
  | responseHeadersPassed _ hacc | responseBodyPassed _ _ _ hacc | streamCompletePassed _ hacc =>
      exact h.quiet ⟨rfl, rfl, rfl, rfl, id, rfl, .rfl, rfl,
        ⟨_, rfl, by simp [Obs.event, Obs.releases, Obs.resumes]⟩, rfl, hidle hacc⟩
  | responseHeadersObserved headers fn hacc hfn => simp [hdef] at hfn
  | responseBodyObserved body endStream fn hacc hfn => simp [hdef] at hfn
  | localReply details text =>
      exact h.quiet ⟨rfl, rfl, rfl, rfl, id, rfl, .rfl, rfl,
        ⟨_, rfl, by simp [Obs.event, Obs.releases, Obs.resumes]⟩, rfl, fun _ => ⟨rfl, rfl⟩⟩
  | streamCompleteFlushed _ hacc hfn => simp [hdef] at hfn
  | destroyed hempty hlive =>
      exact h.quiet ⟨rfl, rfl, rfl, rfl, id, rfl, .rfl, rfl,
        ⟨_, rfl, by simp [Obs.event, Obs.releases, Obs.resumes]⟩, rfl,
        fun hne => absurd (List.isEmpty_iff.mp hempty) hne⟩
  | calloutDropped id _ _ _ _ hid | calloutContinued id _ _ _ _ _ hid =>
      have := h.callouts
      simp_all [calloutIds]
  | doAnswered id ch _ _ _ _ hdel =>
      refine h.quiet ⟨rfl, rfl, rfl, rfl, fun hnone => ?_, rfl, .rfl, rfl,
        ⟨[], (List.append_nil _).symm, by simp⟩, rfl, fun _ => ⟨rfl, rfl⟩⟩
      obtain ⟨hcallouts, hdo⟩ := List.append_eq_nil_iff.mp hnone
      simp [calloutIds, deliverDo, hcallouts, List.map_eq_nil_iff.mp hdo]
  | streamEventDropped _ _ hid | streamEventRun _ _ _ hid | streamEndDropped _ _ hid
  | streamEndFlushed _ _ hid | streamEndRun _ _ _ _ hid => simp [h.streams] at hid
  | taskFlushed _ _ _ _ htask | taskCallout _ _ _ _ _ _ _ _ htask => simp [h.tasks] at htask
  | workerActs | calloutReturned | streamReturned | callbackFinished => exact h.worker hstep
  | goroutineActs _ _ _ _ hgo | goroutineFinished _ hgo => simp [h.goroutine] at hgo

lemma Deciding.view_begins (h : s.Deciding r cs) : hostView s.trace <+: view r cs := by
  cases h.stage with
  | before hphase hstack hview =>
      rw [hview]
      exact List.nil_prefix
  | running done rest hcs hphase hstack hwriter hagrees hview =>
      rw [hview, view, hcs, Writer.calls_append, List.append_assoc, List.map_append, List.append_assoc]
      exact List.prefix_append _ _
  | answered hphase hstack hview => exact hview ▸ List.prefix_rfl

lemma Deciding.view_of_idle (h : s.Deciding r cs) (hphase : s.phase ≠ .awaitingHeaders)
    (hstack : s.stack = []) : hostView s.trace = view r cs := by
  cases h.stage with
  | before hawaiting => exact absurd hawaiting hphase
  | running _ _ _ _ hrunning => exact absurd hstack (by simp [hrunning])
  | answered _ _ hview => exact hview

lemma deciding_run {ls : List Label} (hrun : run step (State.new r { handler := straight cs }) ls = some s) :
    s.Deciding r cs :=
  run_invariant (fun _ _ _ h hs => h.step hs) (deciding_new r cs) hrun

/-- **What the host sees of a handler that decides at once.**  In every run it has seen a beginning of
`view`, and the whole of it once the handler has returned. -/
lemma straight_run {ls : List Label} (hrun : run step (State.new r { handler := straight cs }) ls = some s) :
    hostView s.trace <+: view r cs ∧
      (s.phase ≠ .awaitingHeaders → s.stack = [] → hostView s.trace = view r cs) :=
  ⟨(deciding_run hrun).view_begins, (deciding_run hrun).view_of_idle⟩

/-- **Middlewares run in the order in which `Chain` gets them**, each around the ones after it, whatever the
comment of `Chain` says: in every run this is what the host sees, up to and from the first layer that does
not hand on. -/
theorem middleware_run {layers : List Layer} {ls : List Label}
    (hrun : run step (State.new r { handler := chain (straight cs) (layers.map (·.middleware)) }) ls =
      some s) :
    hostView s.trace <+: view r (onion layers cs) ∧
      (s.phase ≠ .awaitingHeaders → s.stack = [] → hostView s.trace = view r (onion layers cs)) := by
  rw [chain_straight] at hrun
  exact straight_run hrun

/-- Two middlewares, of which the second does not hand on: the host sees the header that the first has set
before it, not the one that the first sets after, and not what the handler does. -/
theorem middleware_run_second : ∃ s,
    run step (State.new 0 {
        handler := chain (straight [.clearRouteCache]) ([
          { pre := [.setResponseHeader (ascii "a") []], handsOn := true,
            post := [.setResponseHeader (ascii "b") []] },
          { pre := [.send 403 []], handsOn := false, post := [] }].map Layer.middleware) })
        [.requestHeaders true, .worker { }, .worker { }, .worker { }, .worker { }] = some s ∧
      hostView s.trace =
        [.sendLocalResponse 403 [⟨ascii "a", []⟩] [] (ascii "sahl"), .headersStatus .statusStop] := by
  obtain ⟨s, hrun⟩ : ∃ s,
      run step (State.new 0 {
        handler := chain (straight [.clearRouteCache]) ([
          { pre := [.setResponseHeader (ascii "a") []], handsOn := true,
            post := [.setResponseHeader (ascii "b") []] },
          { pre := [.send 403 []], handsOn := false, post := [] }].map Layer.middleware) })
        [.requestHeaders true, .worker { }, .worker { }, .worker { }, .worker { }] = some s := ⟨_, rfl⟩
  obtain ⟨-, hfull⟩ := middleware_run hrun
  refine ⟨s, hrun, (hfull ?_ ?_).trans (by decide)⟩
  · cases hrun
    decide
  · cases hrun
    rfl

end State

end Luwes.Sahl
