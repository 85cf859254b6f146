import Luwes.Sahl.Applied

/-!
# The operations on a Writer

Everything that happens to a Writer between `reset` and its return to the pool is a sequence of the
operations below: calls of user code, and what the callbacks of the filter do themselves.
`Moves.writerOps` says so of every step of the filter.  Where several requests share a pool of
Writers, their steps are these operations, each through the pointer of whoever takes it.

An operation marks what it queues with the identity of the call, and a call on the handle that
applies something queued shows the marks (`HandleCall.ids`).  `OwnedBy r` says that everything in a
Writer is request `r`'s; an operation of `r` keeps it so.
-/

namespace Luwes.Sahl

/-- What can happen to a Writer. -/
inductive WriterOp
  /-- A method that returns at once. -/
  | call (c : UserCall)
  /-- `Go`. -/
  | go
  /-- `HTTPCalloutE` up to the call on the handle, which it includes. -/
  | httpCallout (req : HTTPCalloutRequest) (fn : HTTPCalloutFunc)
  /-- `HTTPCalloutE` after that call. -/
  | calloutInit (init : HttpCalloutInitResult)
  /-- `HTTPStream` up to the call on the handle, which it includes. -/
  | httpStream (req : HTTPStreamRequest) (fn : HTTPStreamEventFunc)
  /-- `HTTPStream` after that call. -/
  | streamInit (init : HttpCalloutInitResult)
  /-- The function a `Do` has scheduled calls the handle. -/
  | scheduledCallout (req : HTTPCalloutRequest)
  /-- `OnHttpCalloutDone` takes the continuation out. -/
  | takeCalloutFn
  /-- `OnHttpStreamComplete` and `OnHttpStreamReset` take the event function out. -/
  | clearStreamEventFn
  /-- `OnLocalReply`. -/
  | localReply (details : GoString)
  /-- `flush`. -/
  | flush (continueReq : Bool)
  /-- `flushResponseMutations`. -/
  | flushResponse

namespace WriterOp

/-- The operation is a method of the Writer that user code can call. -/
def isMethod : WriterOp → Bool
  | .call _ | .go | .httpCallout _ _ | .calloutInit _ | .httpStream _ _ | .streamInit _ => true
  | _ => false

end WriterOp

namespace Writer

/-- The Writer after the operation and the calls the operation makes on `w.handle`. -/
def apply (w : Writer) (id : CallId) : WriterOp → Writer × List HandleCall
  | .call c => w.userCall id c
  | .go => if w.goPanics then (w, []) else (w.startGo id.request, [])
  | .httpCallout req fn =>
    if w.calloutPanics then (w, []) else (w.storeCalloutFn fn, [.httpCallout req])
  | .calloutInit init => (w.calloutInit init, [])
  | .httpStream req fn =>
    if w.streamPanics then (w, []) else (w.storeStreamEventFn fn, [.startHttpStream req])
  | .streamInit init => (w.streamInit init, [])
  | .scheduledCallout req => (w, [.httpCallout req])
  | .takeCalloutFn => ({ w with calloutFn := none }, [])
  | .clearStreamEventFn => ({ w with streamEventFn := none }, [])
  | .localReply details => ({ w with localReplyDetails := details }, [])
  | .flush continueReq => (w, w.flush continueReq)
  | .flushResponse => w.flushResponseMutations

/-- Several operations in a row. -/
def applyAll (w : Writer) (id : CallId) : List WriterOp → Writer × List HandleCall
  | [] => (w, [])
  | op :: ops =>
    let first := w.apply id op
    let rest := first.1.applyAll id ops
    (rest.1, first.2 ++ rest.2)

end Writer

/-! ## Marks -/

/-- The calls of user code that queued what the call on the handle applies. -/
def HandleCall.ids : HandleCall → List CallId
  | .headerSet m => [m.id]
  | .setMetadata m => [m.id]
  | .recordHistogramValue m | .incrementCounterValue m => [m.id]
  | .sendLocalResponse r _ => r.sender :: r.headers.map (·.id)
  | _ => []

namespace Writer

/-- The Writer points at request `r`, and everything queued in it is `r`'s. -/
structure OwnedBy (r : ℕ) (w : Writer) : Prop where
  handle : w.handle = r
  scheduler : w.scheduler = r
  reqMuts : ∀ m ∈ w.reqMuts, m.id.request = r
  respHdrMuts : ∀ m ∈ w.respHdrMuts, m.id.request = r
  metaMuts : ∀ m ∈ w.metaMuts, m.id.request = r
  counterMuts : ∀ m ∈ w.counterMuts, m.id.request = r
  localResp : ∀ resp, w.localResp = some resp →
    ∀ id ∈ resp.sender :: resp.headers.map (·.id), id.request = r

lemma ownedBy_reset (w : Writer) (r : ℕ) (cb : Option ℕ) :
    OwnedBy r { w.reset r r with calloutCB := cb, streamCB := cb } := by
  constructor <;> simp [reset]

variable {r : ℕ} {w : Writer} {id : CallId}

lemma ids_counterCall (m : Queued CounterMut) : (counterCall m).ids = [m.id] := by
  unfold counterCall
  split_ifs <;> rfl

lemma OwnedBy.metaCalls (h : w.OwnedBy r) :
    ∀ c ∈ w.metaMuts.map HandleCall.setMetadata, ∀ i ∈ c.ids, i.request = r := by
  intro c hc i hi
  obtain ⟨m, hm, rfl⟩ := List.mem_map.mp hc
  obtain rfl := List.mem_singleton.mp hi
  exact h.metaMuts m hm

lemma OwnedBy.counterCalls (h : w.OwnedBy r) :
    ∀ c ∈ w.counterMuts.map counterCall, ∀ i ∈ c.ids, i.request = r := by
  intro c hc i hi
  obtain ⟨m, hm, rfl⟩ := List.mem_map.mp hc
  rw [ids_counterCall] at hi
  obtain rfl := List.mem_singleton.mp hi
  exact h.counterMuts m hm

/-- What a flush applies is in the queues. -/
lemma OwnedBy.flush (h : w.OwnedBy r) (b : Bool) :
    ∀ c ∈ w.flush b, ∀ i ∈ c.ids, i.request = r := by
  intro c hc i hi
  cases hrej : w.rejected with
  | true =>
      rw [flush_rejected hrej] at hc
      obtain ⟨resp, hresp, rfl⟩ := List.mem_map.mp hc
      exact h.localResp resp (Option.mem_toList.mp hresp) i hi
  | false =>
      rw [flush_open hrej, mutationCalls] at hc
      simp only [List.mem_append] at hc
      rcases hc with (((hc | hc) | hc) | hc) | hc
      · obtain ⟨m, hm, rfl⟩ := List.mem_map.mp hc
        obtain rfl := List.mem_singleton.mp hi
        exact h.reqMuts m hm
      · exact h.metaCalls c hc i hi
      · have : c = .clearRouteCache := by
          split_ifs at hc <;> simp_all
        simp [this, HandleCall.ids] at hi
      · exact h.counterCalls c hc i hi
      · have : c = .continueRequest := by
          split_ifs at hc <;> simp_all
        simp [this, HandleCall.ids] at hi

lemma mem_append_singleton {α : Type*} {P : α → Prop} {xs : List α} {x : α}
    (hxs : ∀ y ∈ xs, P y) (hx : P x) : ∀ y ∈ xs ++ [x], P y := by
  intro y hy
  rcases List.mem_append.mp hy with hy | hy
  · exact hxs y hy
  · rwa [List.mem_singleton.mp hy]

lemma OwnedBy.userCall (h : w.OwnedBy r) (hid : id.request = r) (c : UserCall) :
    (w.userCall id c).1.OwnedBy r ∧ ∀ d ∈ (w.userCall id c).2, ∀ i ∈ d.ids, i.request = r := by
  have hcall := w.userCall_called id c
  generalize w.userCall id c = res at hcall ⊢
  have hids : ∀ i ∈ id :: w.respHdrMuts.map (·.id), i.request = r := by
    intro i hi
    rcases List.mem_cons.mp hi with rfl | hi
    · exact hid
    · obtain ⟨m, hm, rfl⟩ := List.mem_map.mp hi
      exact h.respHdrMuts m hm
  cases hcall with
  | cancelled | context => exact ⟨h, by simp⟩
  | sends =>
      refine ⟨{ h with }, fun d hd => ?_⟩
      obtain rfl := List.mem_singleton.mp hd
      exact hids
  | defers =>
      refine ⟨{ h with localResp := fun resp hresp => ?_ }, by simp⟩
      obtain rfl := Option.some.inj hresp
      exact hids
  | responseHeader =>
      exact ⟨{ h with respHdrMuts := mem_append_singleton h.respHdrMuts hid }, by simp⟩
  | requestHeader => exact ⟨{ h with reqMuts := mem_append_singleton h.reqMuts hid }, by simp⟩
  | metadata => exact ⟨{ h with metaMuts := mem_append_singleton h.metaMuts hid }, by simp⟩
  | routeCache => exact ⟨{ h with }, by simp⟩
  | counter | histogram =>
      exact ⟨{ h with counterMuts := mem_append_singleton h.counterMuts hid }, by simp⟩
  | replaces | appends => exact ⟨h, by simp [HandleCall.ids]⟩

/-- **An operation of `r` keeps the Writer `r`'s**, and what it applies was queued by `r`. -/
lemma OwnedBy.apply (h : w.OwnedBy r) (hid : id.request = r) (op : WriterOp) :
    (w.apply id op).1.OwnedBy r ∧ ∀ c ∈ (w.apply id op).2, ∀ i ∈ c.ids, i.request = r := by
  cases op with
  | call c => exact h.userCall hid c
  | go =>
      simp only [Writer.apply]
      split_ifs
      · exact ⟨h, by simp⟩
      · exact ⟨{ h with }, by simp⟩
  | httpCallout req fn | httpStream req fn =>
      simp only [Writer.apply]
      split_ifs
      · exact ⟨h, by simp⟩
      · exact ⟨{ h with }, by simp [HandleCall.ids]⟩
  | calloutInit init =>
      simp only [Writer.apply, calloutInit]
      split_ifs <;> exact ⟨{ h with }, by simp⟩
  | streamInit init =>
      simp only [Writer.apply, streamInit]
      split_ifs <;> exact ⟨{ h with }, by simp⟩
  | scheduledCallout req => exact ⟨h, by simp [Writer.apply, HandleCall.ids]⟩
  | takeCalloutFn | clearStreamEventFn | localReply => exact ⟨{ h with }, by simp [Writer.apply]⟩
  | flush b => exact ⟨h, h.flush b⟩
  | flushResponse =>
      refine ⟨{ h with metaMuts := List.forall_mem_nil _, counterMuts := List.forall_mem_nil _ },
        fun c hc => ?_⟩
      rcases List.mem_append.mp hc with hc | hc
      · exact h.metaCalls c hc
      · exact h.counterCalls c hc

/-- No operation changes the handle that the Writer points at. -/
lemma apply_handle (w : Writer) (id : CallId) (op : WriterOp) :
    (w.apply id op).1.handle = w.handle := by
  cases op with
  | call c =>
      have hcall := w.userCall_called id c
      simp only [Writer.apply]
      generalize w.userCall id c = res at hcall ⊢
      cases hcall <;> rfl
  | go =>
      simp only [Writer.apply]
      split_ifs <;> rfl
  | httpCallout req fn | httpStream req fn =>
      simp only [Writer.apply]
      split_ifs <;> rfl
  | calloutInit init =>
      simp only [Writer.apply, calloutInit]
      split_ifs <;> rfl
  | streamInit init =>
      simp only [Writer.apply, streamInit]
      split_ifs <;> rfl
  | _ => rfl

lemma applyAll_handle (w : Writer) (id : CallId) (ops : List WriterOp) :
    (w.applyAll id ops).1.handle = w.handle := by
  induction ops generalizing w with
  | nil => rfl
  | cons op ops ih => exact (ih _).trans (w.apply_handle id op)

end Writer

/-! ## Every step of a filter -/

/-- The calls on the handle among the events. -/
def callsOf (obs : List Obs) : List HandleCall :=
  obs.filterMap fun
    | .call c => some c
    | _ => none

@[simp] lemma callsOf_append (xs ys : List Obs) : callsOf (xs ++ ys) = callsOf xs ++ callsOf ys :=
  List.filterMap_append

@[simp] lemma callsOf_calls (cs : List HandleCall) : callsOf (cs.map .call) = cs := by
  rw [callsOf, List.filterMap_map]
  exact List.filterMap_some

lemma callsOf_flushed (b : Bool) (cs : List HandleCall) :
    callsOf (.flushed b :: cs.map .call) = cs := callsOf_calls cs

namespace State

/-- From the Writer `w`, operations of the request lead to the record `g`.  Besides what the Writer
calls, the filter itself may have removed a response header. -/
def Operates (s : State) (w : Writer) (g : Ledger) : Prop :=
  ∃ obs own ops, g.trace = s.trace ++ obs ∧ (∀ c ∈ own, ∃ key, c = .removeResponseHeader key) ∧
    callsOf obs = own ++ (w.applyAll ⟨s.request, s.seq⟩ ops).2 ∧
    g.writer = (w.applyAll ⟨s.request, s.seq⟩ ops).1

lemma operates_of_ops {s : State} {w : Writer} {g : Ledger} {obs : List Obs} (ops : List WriterOp)
    (htr : g.trace = s.trace ++ obs)
    (hcalls : callsOf obs = (w.applyAll ⟨s.request, s.seq⟩ ops).2)
    (hw : g.writer = (w.applyAll ⟨s.request, s.seq⟩ ops).1) : s.Operates w g :=
  ⟨obs, [], ops, htr, by simp, by simpa using hcalls, hw⟩

lemma Acts.operates {s s' : State} {who : Actor} {a : Act} {code : Code}
    (h : Acts s who a code s') : s.Operates s.writer s'.toLedger := by
  cases h with
  | reads | schedulesDo =>
      exact operates_of_ops [] (List.append_nil _).symm rfl rfl
  | calls c k rs =>
      exact operates_of_ops [.call c] rfl ((callsOf_calls _).trans (List.append_nil _).symm) rfl
  | startsGo fn k hgo =>
      refine operates_of_ops [.go] rfl ?_ ?_ <;>
        simp [Writer.applyAll, Writer.apply, Writer.goPanics, hgo, callsOf, Ledger.setWriter,
          Ledger.emit]
  | failsCallout req fn _ _ hfree =>
      refine operates_of_ops [.httpCallout req fn] rfl ?_ ?_ <;>
        simp [Writer.applyAll, Writer.apply, hfree, callsOf, Ledger.setWriter, Ledger.emit]
  | startsCallout req fn _ _ hfree =>
      refine operates_of_ops [.httpCallout req fn] (List.append_assoc _ _ _) ?_ ?_ <;>
        simp [Writer.applyAll, Writer.apply, hfree, callsOf, Ledger.setWriter, Ledger.emit]
  | failsStream req fn _ _ hfree =>
      refine operates_of_ops [.httpStream req fn] rfl ?_ ?_ <;>
        simp [Writer.applyAll, Writer.apply, hfree, callsOf, Ledger.setWriter, Ledger.emit]
  | startsStream req fn _ _ hfree =>
      refine operates_of_ops [.httpStream req fn] (List.append_assoc _ _ _) ?_ ?_ <;>
        simp [Writer.applyAll, Writer.apply, hfree, callsOf, Ledger.setWriter, Ledger.emit]

lemma operates_flush (s : State) (b : Bool) (r : List Obs) (hr : callsOf r = []) :
    s.Operates s.writer ((s.toLedger.flush b).emit r) := by
  refine operates_of_ops [.flush b] (List.append_assoc _ _ _) ?_ rfl
  simp only [callsOf_append, hr, Writer.applyAll, Writer.apply, List.append_nil]
  exact callsOf_calls (s.writer.flush b)

lemma operates_emit (s : State) (r : List Obs) (hr : callsOf r = []) :
    s.Operates s.writer (s.toLedger.emit r) :=
  operates_of_ops [] rfl (by simpa [Writer.applyAll] using hr) rfl

lemma finish_operates (s : State) (cb : Callback) :
    s.Operates s.writer (s.finish cb).toLedger := by
  cases cb with
  | onRequestHeaders =>
      simp only [finish, onRequestHeadersTail]
      split_ifs
      · exact operates_emit s _ rfl
      · exact operates_flush s false _ rfl
      · exact operates_emit s _ rfl
  | onRequestBody =>
      simp only [finish, onRequestBodyTail]
      split_ifs
      · exact operates_flush s false _ rfl
      · exact operates_emit s _ rfl
  | onResponseHeaders => exact operates_emit s _ rfl
  | onResponseBody endStream =>
      simp only [finish, onResponseBodyTail]
      split_ifs <;> exact operates_emit s _ rfl
  | onHttpStreamEvent => exact operates_of_ops [] (List.append_nil _).symm rfl rfl
  | onHttpCalloutDone =>
      exact operates_of_ops [.flush true] rfl
        ((callsOf_flushed _ _).trans (List.append_nil _).symm) rfl
  | onHttpStreamComplete =>
      exact operates_of_ops [.clearStreamEventFn, .flush true] rfl
        ((callsOf_flushed _ _).trans (List.append_nil _).symm) rfl
  | onHttpStreamReset =>
      exact operates_of_ops [.clearStreamEventFn, .flush (!s.writer.responded)] rfl
        ((callsOf_flushed _ _).trans (List.append_nil _).symm) rfl

/-- **Every step of a filter is a sequence of operations on its Writer**, after `OnRequestHeaders`
has taken that Writer from the pool. -/
theorem Moves.writerOps {s s' : State} {l : Label} (h : Moves s l s') :
    s.Operates s.writer s'.toLedger ∨
      (s.phase = .awaitingHeaders ∧ s.Operates s.toLedger.acquireWriter.writer s'.toLedger) := by
  cases h with
  | headersDeferred _ _ hphase | headersHandled _ _ hphase =>
      exact .inr ⟨hphase, operates_of_ops [] rfl rfl rfl⟩
  | responseHeadersObserved =>
      refine .inl ⟨_, if s.filterDef.mutableResponse then
        [.removeResponseHeader (ascii "content-length")] else [], [], rfl, ?_, ?_, rfl⟩
      · split_ifs <;> simp
      · split_ifs <;> simp [callsOf, Writer.applyAll]
  | localReply details text => exact .inl (operates_of_ops [.localReply text] rfl rfl rfl)
  | streamCompleteFlushed =>
      refine .inl (operates_of_ops [.flushResponse] (List.append_assoc _ _ _) ?_ rfl)
      simp only [callsOf_append, Writer.applyAll, Writer.apply, List.append_nil]
      exact (congrArg (· ++ []) (callsOf_calls _)).trans (List.append_nil _)
  | calloutContinued => exact .inl (operates_of_ops [.takeCalloutFn] rfl rfl rfl)
  | doAnswered | streamEventDropped | streamEventRun =>
      exact .inl (operates_of_ops [] (List.append_nil _).symm rfl rfl)
  | streamEndFlushed =>
      refine .inl (operates_of_ops [.flush true] (List.append_assoc _ _ _) ?_ rfl)
      simp only [callsOf_append, Writer.applyAll, Writer.apply, List.append_nil]
      exact callsOf_calls (s.writer.flush true)
  | taskFlushed =>
      exact .inl (operates_of_ops [.flush true] rfl
        ((callsOf_flushed _ _).trans (List.append_nil _).symm) rfl)
  | taskCallout i c ch req => exact .inl (operates_of_ops [.scheduledCallout req] rfl rfl rfl)
  | workerActs _ _ _ _ _ _ _ _ _ hact => exact .inl hact.operates
  | goroutineActs _ _ _ _ _ _ hact => exact .inl hact.operates
  | calloutReturned _ _ _ init =>
      exact .inl (operates_of_ops [.calloutInit init] (List.append_nil _).symm rfl rfl)
  | streamReturned _ _ _ init =>
      exact .inl (operates_of_ops [.streamInit init] (List.append_nil _).symm rfl rfl)
  | callbackFinished c cb rest => exact .inl (finish_operates { s with stack := rest } cb)
  | _ => exact .inl (operates_emit s _ rfl)

end State

end Luwes.Sahl
