import Luwes.Sahl.Steps

/-!
# What a step does to the record

Most steps leave the queues of the Writer alone and add nothing to the trace that concerns them.
The others do one of four things: acquire the Writer, make one call of user code, flush, or flush the
response mutations.  `Changes` says so, and says when each of the four happens; what the queues and
the trace have to do with each other is proved from it.
-/

namespace Luwes.Sahl

/-! ## Quiet changes -/

/-- A call that starts an operation or edits the response headers; it has nothing to do with the
queues. -/
def HandleCall.isQuiet : HandleCall → Bool
  | .httpCallout _ | .startHttpStream _ | .removeResponseHeader _ => true
  | _ => false

/-- An event that is neither a call of user code, nor a flush, nor what a flush does. -/
def Obs.isQuiet : Obs → Bool
  | .call c => c.isQuiet
  | .user _ _ _ | .flushed _ => false
  | _ => true

/-- The queues and what decides about them are the same; the three flags may have been set. -/
structure Writer.SameQueues (w w' : Writer) : Prop where
  reqMuts : w'.reqMuts = w.reqMuts
  respHdrMuts : w'.respHdrMuts = w.respHdrMuts
  metaMuts : w'.metaMuts = w.metaMuts
  counterMuts : w'.counterMuts = w.counterMuts
  responded : w'.responded = w.responded
  routeCleared : w'.routeCleared = w.routeCleared
  localResp : w'.localResp = w.localResp
  goStarted : w.goStarted = true → w'.goStarted = true
  calloutStarted : w.calloutStarted = true → w'.calloutStarted = true
  streamStarted : w.streamStarted = true → w'.streamStarted = true

namespace Writer

lemma sameQueues_refl (w : Writer) : w.SameQueues w := by
  constructor <;> first | rfl | exact id

lemma SameQueues.trans {w₁ w₂ w₃ : Writer} (h : w₁.SameQueues w₂) (h' : w₂.SameQueues w₃) :
    w₁.SameQueues w₃ where
  reqMuts := h'.reqMuts.trans h.reqMuts
  respHdrMuts := h'.respHdrMuts.trans h.respHdrMuts
  metaMuts := h'.metaMuts.trans h.metaMuts
  counterMuts := h'.counterMuts.trans h.counterMuts
  responded := h'.responded.trans h.responded
  routeCleared := h'.routeCleared.trans h.routeCleared
  localResp := h'.localResp.trans h.localResp
  goStarted := h'.goStarted ∘ h.goStarted
  calloutStarted := h'.calloutStarted ∘ h.calloutStarted
  streamStarted := h'.streamStarted ∘ h.streamStarted

lemma sameQueues_startGo (w : Writer) (r : ℕ) : w.SameQueues (w.startGo r) := by
  constructor <;> simp [startGo]

lemma sameQueues_calloutFn (w : Writer) (fn : Option HTTPCalloutFunc) :
    w.SameQueues { w with calloutFn := fn } := by
  constructor <;> simp

lemma sameQueues_streamEventFn (w : Writer) (fn : Option HTTPStreamEventFunc) :
    w.SameQueues { w with streamEventFn := fn } := by
  constructor <;> simp

lemma sameQueues_calloutInit (w : Writer) (init : HttpCalloutInitResult) :
    w.SameQueues (w.calloutInit init) := by
  unfold calloutInit
  split <;> constructor <;> simp

lemma sameQueues_streamInit (w : Writer) (init : HttpCalloutInitResult) :
    w.SameQueues (w.streamInit init) := by
  unfold streamInit
  split <;> constructor <;> simp

lemma SameQueues.asyncStarted {w w' : Writer} (h : w.SameQueues w')
    (hw : w.asyncStarted = true) : w'.asyncStarted = true := by
  have hgo := h.goStarted
  have hcallout := h.calloutStarted
  have hstream := h.streamStarted
  simp only [Writer.asyncStarted, Bool.or_eq_true] at hw ⊢
  tauto

end Writer

/-! ## One call of user code -/

/-- The call has no effect on a Writer that has responded. -/
def UserCall.isCancelled : UserCall → Bool
  | .send _ _ | .setResponseHeader _ _ | .setRequestHeader _ _ | .setMetadata _ _ _ => true
  | _ => false

namespace Writer

/-- What one call of user code does to the Writer, and the calls it makes on the handle. -/
inductive Called (w : Writer) (id : CallId) : UserCall → Writer × List HandleCall → Prop
  | cancelled (c : UserCall) (hc : c.isCancelled = true) (hresp : w.responded = true) :
      Called w id c (w, [])
  | sends (statusCode : ℤ) (body : Bytes) (hresp : w.responded = false)
      (hgo : w.goStarted = false) :
      Called w id (.send statusCode body)
        ({ w with responded := true },
          [.sendLocalResponse ⟨UInt32.ofInt statusCode, w.respHdrMuts, body, id⟩ (ascii "sahl")])
  | defers (statusCode : ℤ) (body : Bytes) (hresp : w.responded = false)
      (hgo : w.goStarted = true) :
      Called w id (.send statusCode body)
        ({ w with
            responded := true
            localResp := some ⟨UInt32.ofInt statusCode, w.respHdrMuts, body, id⟩ }, [])
  | responseHeader (key value : GoString) (hresp : w.responded = false) :
      Called w id (.setResponseHeader key value)
        ({ w with respHdrMuts := w.respHdrMuts ++ [⟨⟨key, value⟩, id⟩] }, [])
  | requestHeader (key value : GoString) (hresp : w.responded = false) :
      Called w id (.setRequestHeader key value)
        ({ w with reqMuts := w.reqMuts ++ [⟨⟨key, value⟩, id⟩] }, [])
  | metadata (ns key : GoString) (value : MetadataValue) (hresp : w.responded = false) :
      Called w id (.setMetadata ns key value)
        ({ w with metaMuts := w.metaMuts ++ [⟨⟨ns, key, value⟩, id⟩] }, [])
  | routeCache : Called w id .clearRouteCache ({ w with routeCleared := true }, [])
  | counter (metric n : ℕ) (tags : List GoString) :
      Called w id (.incrementCounter metric n tags) (w.queueMetric id ⟨metric, n, tags, false⟩, [])
  | histogram (metric n : ℕ) (tags : List GoString) :
      Called w id (.recordHistogram metric n tags) (w.queueMetric id ⟨metric, n, tags, true⟩, [])
  | replaces (newBody : Bytes) :
      Called w id (.setResponseBody newBody) (w, [.replaceBufferedResponseBody newBody])
  | appends (data : Bytes) :
      Called w id (.appendResponseBody data) (w, [.appendBufferedResponseBody data])
  | context (v : ℕ) : Called w id (.setContext v) (w, [])

/-- **What one call of user code does.** -/
theorem userCall_called (w : Writer) (id : CallId) (c : UserCall) :
    w.Called id c (w.userCall id c) := by
  cases c with
  | clearRouteCache => exact .routeCache
  | incrementCounter metric n tags => exact .counter metric n tags
  | recordHistogram metric n tags => exact .histogram metric n tags
  | setResponseBody newBody => exact .replaces newBody
  | appendResponseBody data => exact .appends data
  | setContext v => exact .context v
  | send statusCode body =>
      simp only [userCall, sendBytes]
      split_ifs with hresp hgo
      · exact .cancelled _ rfl hresp
      · exact .defers statusCode body (by simpa using hresp) hgo
      · exact .sends statusCode body (by simpa using hresp) (by simpa using hgo)
  | setResponseHeader key value =>
      simp only [userCall, setResponseHeader]
      split_ifs with hresp
      · exact .cancelled _ rfl hresp
      · exact .responseHeader key value (by simpa using hresp)
  | setRequestHeader key value =>
      simp only [userCall, setRequestHeader]
      split_ifs with hresp
      · exact .cancelled _ rfl hresp
      · exact .requestHeader key value (by simpa using hresp)
  | setMetadata ns key value =>
      simp only [userCall, setMetadata]
      split_ifs with hresp
      · exact .cancelled _ rfl hresp
      · exact .metadata ns key value (by simpa using hresp)

/-- No call of user code sets or clears one of the three flags. -/
lemma userCall_flags (w : Writer) (id : CallId) (c : UserCall) :
    (w.userCall id c).1.goStarted = w.goStarted ∧
      (w.userCall id c).1.calloutStarted = w.calloutStarted ∧
      (w.userCall id c).1.streamStarted = w.streamStarted := by
  have h := w.userCall_called id c
  generalize w.userCall id c = r at h ⊢
  cases h <;> exact ⟨rfl, rfl, rfl⟩

end Writer

/-! ## Quiet changes of the record -/

/-- Nothing that concerns the queues happens between `g` and `g'`. -/
structure Ledger.Quietly (g g' : Ledger) : Prop where
  request : g'.request = g.request
  seq : g'.seq = g.seq
  queues : g.writer.SameQueues g'.writer
  trace : ∃ obs, g'.trace = g.trace ++ obs ∧ ∀ o ∈ obs, o.isQuiet = true

namespace Ledger

lemma quietly_refl (g : Ledger) : g.Quietly g :=
  ⟨rfl, rfl, g.writer.sameQueues_refl, [], by simp, by simp⟩

lemma quietly_emit (g : Ledger) {obs : List Obs} (h : ∀ o ∈ obs, o.isQuiet = true) :
    g.Quietly (g.emit obs) :=
  ⟨rfl, rfl, g.writer.sameQueues_refl, obs, rfl, h⟩

lemma quietly_setWriter (g : Ledger) {w : Writer} (h : g.writer.SameQueues w) :
    g.Quietly (g.setWriter w) :=
  ⟨rfl, rfl, h, [], by simp [setWriter], by simp⟩

lemma quietly_setWriter_emit (g : Ledger) {w : Writer} {obs : List Obs}
    (hw : g.writer.SameQueues w) (h : ∀ o ∈ obs, o.isQuiet = true) :
    g.Quietly ((g.setWriter w).emit obs) :=
  ⟨rfl, rfl, hw, obs, rfl, h⟩

end Ledger

namespace State

/-! ## The steps that flush -/

/-- The callback flushes after its user code has returned. -/
def flushesAfter (s : State) : Callback → Bool
  | .onRequestHeaders => !s.writer.asyncStarted && !s.writer.responded
  | .onRequestBody => !s.writer.responded
  | .onHttpCalloutDone | .onHttpStreamComplete | .onHttpStreamReset => true
  | .onResponseHeaders | .onResponseBody _ | .onHttpStreamEvent => false

/-- The step calls `flush`. -/
def runsFlush (s : State) : Label → Bool
  | .task i _ => s.tasks[i]? = some .flush
  | .worker _ =>
    match s.stack with
    | ⟨.prog .ret, cb⟩ :: _ => s.flushesAfter cb
    | _ => false
  | .streamEvent (.complete _) =>
    !s.streamDone && s.hasWriter && s.writer.streamEventFn.isNone
  | _ => false

/-! ## What a step does -/

/-- What a step under label `l` makes of the record of `s`. -/
inductive Changes (s : State) (l : Label) : Ledger → Prop
  | quiet {g : Ledger} (hflush : s.runsFlush l = false) (h : s.toLedger.Quietly g) :
      Changes s l g
  | acquired {g : Ledger} (hflush : s.runsFlush l = false) (hphase : s.phase = .awaitingHeaders)
      (h : s.toLedger.acquireWriter.Quietly g) : Changes s l g
  | called (who : Actor) (c : UserCall) (hflush : s.runsFlush l = false)
      (hwho : s.mover l = some who) (hact : s.nextAct l = .calls c) :
      Changes s l (s.toLedger.userCall who c)
  | flushed {g₁ g : Ledger} (b : Bool) (hflush : s.runsFlush l = true)
      (h₁ : s.toLedger.Quietly g₁) (h : (g₁.flush b).Quietly g) : Changes s l g
  | responseFlushed {g : Ledger} (hl : l = .streamComplete) (hwriter : s.hasWriter = true)
      (hfn : s.filterDef.responseFn.isSome = true)
      (h : s.toLedger.flushResponseMutations.Quietly g) : Changes s l g

lemma Acts.changes {s s' : State} {who : Actor} {a : Act} {code : Code} {l : Label}
    (h : Acts s who a code s') (hflush : s.runsFlush l = false) (hwho : s.mover l = some who)
    (hact : s.nextAct l = a) : Changes s l s'.toLedger := by
  cases h with
  | reads => exact .quiet hflush (Ledger.quietly_refl _)
  | calls c k rs => exact .called who c hflush hwho hact
  | startsGo =>
      exact .quiet hflush (Ledger.quietly_setWriter_emit _ (Writer.sameQueues_startGo _ _)
        (by simp [Obs.isQuiet]))
  | failsCallout =>
      exact .quiet hflush (Ledger.quietly_setWriter_emit _ (Writer.sameQueues_calloutFn _ _)
        (by simp [Obs.isQuiet, HandleCall.isQuiet]))
  | startsCallout req fn id k =>
      refine .quiet hflush ⟨rfl, rfl, Writer.sameQueues_calloutFn _ (some fn), _,
        List.append_assoc _ _ _, ?_⟩
      simp [Obs.isQuiet, HandleCall.isQuiet]
  | failsStream =>
      exact .quiet hflush (Ledger.quietly_setWriter_emit _ (Writer.sameQueues_streamEventFn _ _)
        (by simp [Obs.isQuiet, HandleCall.isQuiet]))
  | startsStream req fn id k =>
      refine .quiet hflush ⟨rfl, rfl, Writer.sameQueues_streamEventFn _ (some fn), _,
        List.append_assoc _ _ _, ?_⟩
      simp [Obs.isQuiet, HandleCall.isQuiet]
  | schedulesDo => exact .quiet hflush (Ledger.quietly_refl _)

lemma finish_changes {s : State} {cb : Callback} {rest : List Frame} {c : Choice}
    (hstack : s.stack = ⟨.prog .ret, cb⟩ :: rest) :
    Changes s (.worker c) ({ s with stack := rest }.finish cb).toLedger := by
  have hflush : s.runsFlush (.worker c) = s.flushesAfter cb := by simp [runsFlush, hstack]
  have hret : ∀ (g : Ledger) (r : Returned), g.Quietly (g.emit [.returned r]) := fun g r =>
    Ledger.quietly_emit g (by simp [Obs.isQuiet])
  cases cb with
  | onRequestHeaders =>
      simp only [finish, onRequestHeadersTail]
      split_ifs with hasync hresp
      · exact .quiet (by simp [hflush, flushesAfter, hasync]) (hret _ _)
      · have hresp' : s.writer.responded = false := by simpa using hresp
        exact .flushed false (by simp [hflush, flushesAfter, hasync, hresp'])
          (Ledger.quietly_refl _) (hret _ _)
      · have hresp' : s.writer.responded = true := by simpa using hresp
        exact .quiet (by simp [hflush, flushesAfter, hresp']) (hret _ _)
  | onRequestBody =>
      simp only [finish, onRequestBodyTail]
      split_ifs with hresp
      · have hresp' : s.writer.responded = false := by simpa using hresp
        exact .flushed false (by simp [hflush, flushesAfter, hresp'])
          (Ledger.quietly_refl _) (hret _ _)
      · have hresp' : s.writer.responded = true := by simpa using hresp
        exact .quiet (by simp [hflush, flushesAfter, hresp']) (hret _ _)
  | onResponseHeaders => exact .quiet (by simp [hflush, flushesAfter]) (hret _ _)
  | onResponseBody endStream =>
      simp only [finish, onResponseBodyTail]
      split_ifs <;> exact .quiet (by simp [hflush, flushesAfter]) (hret _ _)
  | onHttpStreamEvent => exact .quiet (by simp [hflush, flushesAfter]) (Ledger.quietly_refl _)
  | onHttpCalloutDone =>
      exact .flushed true (by simp [hflush, flushesAfter]) (Ledger.quietly_refl _)
        (Ledger.quietly_refl _)
  | onHttpStreamComplete =>
      exact .flushed true (by simp [hflush, flushesAfter]) (Ledger.quietly_setWriter _
        (Writer.sameQueues_streamEventFn _ none))
        (Ledger.quietly_refl _)
  | onHttpStreamReset =>
      exact .flushed _ (by simp [hflush, flushesAfter]) (Ledger.quietly_setWriter _
        (Writer.sameQueues_streamEventFn _ none))
        (Ledger.quietly_refl _)

/-- **What a step does to the record.** -/
theorem Moves.changes {s s' : State} {l : Label} (h : Moves s l s') : Changes s l s'.toLedger := by
  cases h with
  | headersDeferred _ _ hphase =>
      exact .acquired rfl hphase (Ledger.quietly_emit _ (by simp [Obs.isQuiet]))
  | headersHandled _ _ hphase =>
      exact .acquired rfl hphase (Ledger.quietly_emit _ (by simp [Obs.isQuiet]))
  | responseHeadersObserved =>
      refine .quiet rfl (Ledger.quietly_emit _ ?_)
      split_ifs <;> simp [Obs.isQuiet, HandleCall.isQuiet]
  | localReply =>
      refine .quiet rfl (Ledger.quietly_setWriter_emit _ ?_ (by simp [Obs.isQuiet]))
      constructor <;> simp
  | streamCompleteFlushed _ _ hfn hwriter =>
      exact .responseFlushed rfl hwriter hfn (Ledger.quietly_emit _ (by simp [Obs.isQuiet]))
  | calloutContinued =>
      exact .quiet rfl ⟨rfl, rfl, Writer.sameQueues_calloutFn _ none, _, rfl, by simp [Obs.isQuiet]⟩
  | doAnswered => exact .quiet rfl (Ledger.quietly_refl _)
  | streamEventDropped ev _ _ hev | streamEventRun ev _ _ _ hev =>
      have hflush : s.runsFlush (.streamEvent ev) = false := by
        cases ev <;> first | rfl | simp [HTTPStreamEvent.isFinal] at hev
      exact .quiet hflush (Ledger.quietly_refl _)
  | streamEndFlushed id _ _ hdone hwriter hfn =>
      exact .flushed true (by simp [runsFlush, hdone, hwriter, hfn])
        (Ledger.quietly_emit _ (by simp [Obs.isQuiet])) (Ledger.quietly_refl _)
  | streamEndRun ev _ _ _ _ _ _ _ _ hfn =>
      have hflush : s.runsFlush (.streamEvent ev) = false := by
        cases ev <;> simp [runsFlush, hfn]
      exact .quiet hflush (Ledger.quietly_emit _ (by simp [Obs.isQuiet]))
  | streamEndDropped ev _ _ _ hskip =>
      have hflush : s.runsFlush (.streamEvent ev) = false := by
        cases ev with
        | complete id =>
            have hskip' : s.streamDone = false → s.hasWriter = false := by simpa using hskip
            cases hdone : s.streamDone <;> simp_all [runsFlush]
        | headers | data | trailers | reset => rfl
      exact .quiet hflush (Ledger.quietly_emit _ (by simp [Obs.isQuiet]))
  | taskFlushed i c _ _ htask =>
      exact .flushed true (by simp [runsFlush, htask]) (Ledger.quietly_refl _)
        (Ledger.quietly_refl _)
  | taskCallout i c ch req _ _ _ _ htask =>
      exact .quiet (by simp [runsFlush, htask])
        (Ledger.quietly_emit _ (by simp [Obs.isQuiet, HandleCall.isQuiet]))
  | workerActs c f rest code s₁ hstack hcode hhost hnil hact =>
      have hflush : s.runsFlush (.worker c) = false := by
        obtain ⟨fcode, cb⟩ := f
        have : fcode ≠ .prog .ret := hcode
        simp only [runsFlush, hstack]
        split
        · simp_all
        · rfl
      exact hact.changes hflush (by simp [mover, hstack]) rfl
  | calloutReturned c cb rest init k hstack =>
      exact .quiet (by simp [runsFlush, hstack])
        (Ledger.quietly_setWriter _ (Writer.sameQueues_calloutInit _ _))
  | streamReturned c cb rest init k hstack =>
      exact .quiet (by simp [runsFlush, hstack])
        (Ledger.quietly_setWriter _ (Writer.sameQueues_streamInit _ _))
  | callbackFinished c cb rest hstack => exact finish_changes hstack
  | goroutineActs c code₀ code s₁ hgo hcode hact =>
      exact hact.changes rfl rfl rfl
  | _ => exact .quiet rfl (Ledger.quietly_emit _ (by simp [Obs.isQuiet]))

/-- A flag stays set until the Writer is acquired again. -/
lemma Changes.flags {s : State} {l : Label} {g : Ledger} (h : Changes s l g)
    (hphase : s.phase ≠ .awaitingHeaders) :
    (s.writer.goStarted = true → g.writer.goStarted = true) ∧
      (s.writer.asyncStarted = true → g.writer.asyncStarted = true) := by
  cases h with
  | quiet _ h => exact ⟨h.queues.goStarted, h.queues.asyncStarted⟩
  | acquired _ hp => exact absurd hp hphase
  | called who c =>
      obtain ⟨hgo, hcallout, hstream⟩ := s.writer.userCall_flags ⟨s.request, s.seq⟩ c
      simp [Ledger.userCall, Writer.asyncStarted, hgo, hcallout, hstream]
  | flushed b _ h₁ h =>
      have hq := h₁.queues.trans h.queues
      exact ⟨hq.goStarted, hq.asyncStarted⟩
  | responseFlushed _ _ _ h => exact ⟨h.queues.goStarted, h.queues.asyncStarted⟩

/-! ## Where an event comes from -/

/-- The running activation is `cb`, and its user code has returned. -/
def Finishes (s : State) (l : Label) (cb : Callback) : Prop :=
  ∃ c rest, l = .worker c ∧ s.stack = ⟨.prog .ret, cb⟩ :: rest

/-- What the end of the running callback does is said by `finish`. -/
lemma Moves.finishes {s s' : State} {l : Label} {cb : Callback} (h : Moves s l s')
    (hfin : s.Finishes l cb) :
    ∃ rest, s.stack = ⟨.prog .ret, cb⟩ :: rest ∧ s' = { s with stack := rest }.finish cb := by
  obtain ⟨c, rest, rfl, hstack⟩ := hfin
  refine ⟨rest, hstack, ?_⟩
  cases h with
  | workerActs _ f _ _ _ hstack' hcode =>
      rw [hstack] at hstack'
      obtain ⟨rfl, -⟩ := List.cons.inj hstack'
      exact absurd rfl hcode
  | calloutReturned _ _ _ _ _ hstack' | streamReturned _ _ _ _ _ hstack' =>
      simp [hstack] at hstack'
  | callbackFinished _ _ _ hstack' =>
      rw [hstack] at hstack'
      obtain ⟨hf, rfl⟩ := List.cons.inj hstack'
      obtain ⟨-, rfl⟩ := Frame.mk.inj hf
      rfl

/-- What `OnRequestHeaders` returns after the handler. -/
def headersStatus (s : State) : HeadersStatus :=
  if s.writer.asyncStarted || s.writer.responded then .statusStop else .statusContinue

/-- What has to hold of the state and the label for the step to record the event.  Calls on the
handle are accounted for by `Changes`. -/
def Emits (s : State) (l : Label) : Obs → Prop
  | .user who _ c => s.mover l = some who ∧ s.nextAct l = .calls c
  | .started who op => s.mover l = some who ∧ s.nextAct l = .accepts op
  | .flushed _ => s.runsFlush l = true
  | .invoked cb =>
    (cb = .onRequestHeaders ∧ s.filterDef.bodyAware = false) ∨
      (cb = .onRequestBody ∧ l = .requestBody true ∧ s.phase = .receiving)
  | .observed cb _ _ _ =>
    (∃ headers, l = .responseHeaders headers ∧ cb = .onResponseHeaders) ∨
      ∃ endStream, (∃ body, l = .responseBody body endStream) ∧ cb = .onResponseBody endStream
  | .responseBody body endStream => l = .responseBody body endStream
  | .returned (.requestHeaders st) =>
    (s.phase = .awaitingHeaders ∧ s.filterDef.bodyAware = true ∧ st = .statusStopAllAndBuffer) ∨
      (s.Finishes l .onRequestHeaders ∧ st = s.headersStatus)
  | .returned (.requestBody endStream st) =>
    (l = .requestBody false ∧ endStream = false ∧ s.filterDef.bodyAware = true ∧
        st = .statusStopAndBuffer) ∨
      (l = .requestBody endStream ∧ s.filterDef.bodyAware = false ∧ st = .statusContinue) ∨
      (s.Finishes l .onRequestBody ∧ st = .statusContinue)
  | .returned (.requestTrailers st) => l = .requestTrailers ∧ st = .statusContinue
  | _ => True

lemma emits_calls {s : State} {l : Label} (cs : List HandleCall) :
    ∀ o ∈ cs.map Obs.call, s.Emits l o := by
  intro o ho
  obtain ⟨c, -, rfl⟩ := List.mem_map.mp ho
  trivial

lemma emits_flush {s : State} {l : Label} {cs : List HandleCall} {b : Bool}
    (hflush : s.runsFlush l = true) : ∀ o ∈ Obs.flushed b :: cs.map .call, s.Emits l o := by
  intro o ho
  rcases List.mem_cons.mp ho with rfl | ho
  · exact hflush
  · exact emits_calls cs o ho

lemma Acts.emits {s s' : State} {who : Actor} {a : Act} {code : Code} {l : Label}
    (h : Acts s who a code s') (hwho : s.mover l = some who) (hact : s.nextAct l = a) :
    ∃ obs, s'.trace = s.trace ++ obs ∧ ∀ o ∈ obs, s.Emits l o := by
  cases h with
  | reads => exact ⟨[], by simp, by simp⟩
  | calls c k rs =>
      refine ⟨_, rfl, fun o ho => ?_⟩
      rcases List.mem_cons.mp ho with rfl | ho
      · exact ⟨hwho, hact⟩
      · exact emits_calls _ o ho
  | startsGo => exact ⟨_, rfl, by simpa [Emits] using ⟨hwho, hact⟩⟩
  | failsCallout => exact ⟨_, rfl, by simp [Emits]⟩
  | startsCallout =>
      exact ⟨_, List.append_assoc _ _ _, by simpa [Emits] using ⟨hwho, hact⟩⟩
  | failsStream => exact ⟨_, rfl, by simp [Emits]⟩
  | startsStream =>
      exact ⟨_, List.append_assoc _ _ _, by simpa [Emits] using ⟨hwho, hact⟩⟩
  | schedulesDo => exact ⟨[], by simp, by simp⟩

lemma finish_emits {s : State} {cb : Callback} {rest : List Frame} {c : Choice}
    (hstack : s.stack = ⟨.prog .ret, cb⟩ :: rest) :
    ∃ obs, ({ s with stack := rest }.finish cb).trace = s.trace ++ obs ∧
      ∀ o ∈ obs, s.Emits (.worker c) o := by
  have hflush : s.runsFlush (.worker c) = s.flushesAfter cb := by simp [runsFlush, hstack]
  have hfin : s.Finishes (.worker c) cb := ⟨c, rest, rfl, hstack⟩
  cases cb with
  | onRequestHeaders =>
      simp only [finish, onRequestHeadersTail]
      split_ifs with hasync hresp
      · refine ⟨_, rfl, ?_⟩
        simp [Emits, hfin, headersStatus, hasync]
      · refine ⟨_, List.append_assoc _ _ _, fun o ho => ?_⟩
        have hresp' : s.writer.responded = false := by simpa using hresp
        rcases List.mem_append.mp ho with ho | ho
        · exact emits_flush (by simp [hflush, flushesAfter, hasync, hresp']) o ho
        · rw [List.mem_singleton.mp ho]
          exact .inr ⟨hfin, by simp [headersStatus, hasync, hresp']⟩
      · have hresp' : s.writer.responded = true := by simpa using hresp
        refine ⟨_, rfl, ?_⟩
        simp [Emits, hfin, headersStatus, hresp']
  | onRequestBody =>
      simp only [finish, onRequestBodyTail]
      split_ifs with hresp
      · refine ⟨_, List.append_assoc _ _ _, fun o ho => ?_⟩
        have hresp' : s.writer.responded = false := by simpa using hresp
        rcases List.mem_append.mp ho with ho | ho
        · exact emits_flush (by simp [hflush, flushesAfter, hresp']) o ho
        · rw [List.mem_singleton.mp ho]
          exact .inr (.inr ⟨hfin, rfl⟩)
      · exact ⟨_, rfl, by simp [Emits, hfin]⟩
  | onResponseHeaders => exact ⟨_, rfl, by simp [Emits]⟩
  | onResponseBody endStream =>
      simp only [finish, onResponseBodyTail]
      split_ifs <;> exact ⟨_, rfl, by simp [Emits]⟩
  | onHttpStreamEvent => exact ⟨[], by simp [finish], by simp⟩
  | onHttpCalloutDone | onHttpStreamComplete | onHttpStreamReset =>
      exact ⟨_, rfl, emits_flush (by simp [hflush, flushesAfter])⟩

/-- **Where the events of a step come from.** -/
theorem Moves.emits {s s' : State} {l : Label} (h : Moves s l s') :
    ∃ obs, s'.trace = s.trace ++ obs ∧ ∀ o ∈ obs, s.Emits l o := by
  cases h with
  | headersDeferred _ _ hphase hbody => exact ⟨_, rfl, by simp [Emits, hphase, hbody]⟩
  | headersHandled _ _ _ hbody => exact ⟨_, rfl, by simp [Emits, hbody]⟩
  | bodyHandled _ hphase => exact ⟨_, rfl, by simp [Emits, hphase]⟩
  | bodyBuffered _ _ hbody => exact ⟨_, rfl, by simp [Emits, hbody]⟩
  | bodyPassed _ _ _ _ hbody => exact ⟨_, rfl, by simp [Emits, hbody]⟩
  | responseHeadersObserved =>
      refine ⟨_, rfl, ?_⟩
      split_ifs <;> simp [Emits]
  | streamCompleteFlushed =>
      refine ⟨_, List.append_assoc _ _ _, fun o ho => ?_⟩
      rcases List.mem_append.mp ho with ho | ho
      · exact emits_calls _ o ho
      · rw [List.mem_singleton.mp ho]
        trivial
  | streamEventDropped | streamEventRun => exact ⟨[], by simp, by simp⟩
  | doAnswered => exact ⟨[], by simp [deliverDo], by simp⟩
  | streamEndFlushed id _ _ hdone hwriter hfn =>
      refine ⟨_, List.append_assoc _ _ _, fun o ho => ?_⟩
      rcases List.mem_append.mp ho with ho | ho
      · rw [List.mem_singleton.mp ho]
        trivial
      · exact emits_flush (by simp [runsFlush, hdone, hwriter, hfn]) o ho
  | taskFlushed i c _ _ htask => exact ⟨_, rfl, emits_flush (by simp [runsFlush, htask])⟩
  | workerActs c f rest code s₁ hstack hcode hhost hnil hact =>
      obtain ⟨obs, htr, hobs⟩ :=
        hact.emits (l := .worker c) (by simp [mover, hstack]) rfl
      exact ⟨obs, htr, hobs⟩
  | goroutineActs c code₀ code s₁ hgo hcode hact =>
      obtain ⟨obs, htr, hobs⟩ := hact.emits (l := .goroutine c) rfl rfl
      exact ⟨obs, htr, hobs⟩
  | calloutReturned | streamReturned => exact ⟨[], by simp [Ledger.setWriter], by simp⟩
  | callbackFinished c cb rest hstack => exact finish_emits hstack
  | _ => exact ⟨_, rfl, by simp [Emits]⟩

/-- An event of the record was there before the step, or the step has emitted it. -/
lemma Moves.mem_trace {s s' : State} {l : Label} {o : Obs} (h : Moves s l s')
    (ho : o ∈ s'.trace) : o ∈ s.trace ∨ s.Emits l o := by
  obtain ⟨obs, htr, hobs⟩ := h.emits
  rw [htr] at ho
  exact (List.mem_append.mp ho).imp_right (hobs o)

end State

end Luwes.Sahl
