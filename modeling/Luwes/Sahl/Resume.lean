import Luwes.Sahl.Applied
import Mathlib.Data.List.Perm.Basic

/-!
# Resuming at most once

A request that `OnRequestHeaders` stopped is resumed by `flush(true)`, and every operation that a
handler can start ends in one: the goroutine through the scheduler, the callout and the stream
through their last event.  Nothing in `flush` remembers that it has run, so the request is resumed
as often as operations come to an end.

The account is kept in `credit_step`: an operation that is accepted earns one flush, and what is in
flight (`pending`) is the flushes earned and not yet spent.  With at most one accepted operation
there is at most one flush in all, and from that the results about `ContinueRequest` and about the
queued request headers follow.

The three methods keep two operations apart only in part: `Go` does not look at the flags of a
callout or a stream, `HTTPCallout` not at that of a stream.
-/

namespace Luwes.Sahl

open LabelledRun

/-! ## Counting -/

/-- The host or `Go` accepts an operation. -/
def Obs.isStart : Obs → Bool
  | .started _ _ => true
  | _ => false

/-- `flush` is called. -/
def Obs.isFlush : Obs → Bool
  | .flushed _ => true
  | _ => false

/-- `ContinueRequest` is called. -/
def Obs.isContinue : Obs → Bool
  | .call .continueRequest => true
  | _ => false

/-- `OnRequestHeaders` lets the request go on. -/
def Obs.isSyncReturn : Obs → Bool
  | .returned (.requestHeaders .statusContinue) => true
  | _ => false

lemma Obs.eq_of_isSyncReturn {o : Obs} (h : o.isSyncReturn = true) :
    o = .returned (.requestHeaders .statusContinue) := by
  unfold isSyncReturn at h
  split at h
  · rfl
  · simp at h

/-- The number of operations accepted. -/
def starts (tr : List Obs) : ℕ := tr.countP Obs.isStart

/-- The number of flushes. -/
def flushes (tr : List Obs) : ℕ := tr.countP Obs.isFlush

/-- The number of times `OnRequestHeaders` lets the request go on. -/
def syncReturns (tr : List Obs) : ℕ := tr.countP Obs.isSyncReturn

lemma countP_calls {p : Obs → Bool} (hp : ∀ c, p (.call c) = false) (cs : List HandleCall) :
    (cs.map Obs.call).countP p = 0 := by
  rw [List.countP_eq_zero]
  intro o ho
  obtain ⟨c, -, rfl⟩ := List.mem_map.mp ho
  simp [hp c]

@[simp] lemma starts_calls (cs : List HandleCall) : starts (cs.map .call) = 0 :=
  countP_calls (fun _ => rfl) cs

@[simp] lemma flushes_calls (cs : List HandleCall) : flushes (cs.map .call) = 0 :=
  countP_calls (fun _ => rfl) cs

@[simp] lemma syncReturns_calls (cs : List HandleCall) : syncReturns (cs.map .call) = 0 :=
  countP_calls (fun _ => rfl) cs

@[simp] lemma starts_nil : starts [] = 0 := rfl

@[simp] lemma flushes_nil : flushes [] = 0 := rfl

@[simp] lemma syncReturns_nil : syncReturns [] = 0 := rfl

@[simp] lemma starts_append (xs ys : List Obs) : starts (xs ++ ys) = starts xs + starts ys :=
  List.countP_append

@[simp] lemma flushes_append (xs ys : List Obs) : flushes (xs ++ ys) = flushes xs + flushes ys :=
  List.countP_append

@[simp] lemma syncReturns_append (xs ys : List Obs) :
    syncReturns (xs ++ ys) = syncReturns xs + syncReturns ys :=
  List.countP_append

@[simp] lemma starts_cons (o : Obs) (xs : List Obs) :
    starts (o :: xs) = starts xs + if o.isStart then 1 else 0 := by
  simp [starts, List.countP_cons]

@[simp] lemma flushes_cons (o : Obs) (xs : List Obs) :
    flushes (o :: xs) = flushes xs + if o.isFlush then 1 else 0 := by
  simp [flushes, List.countP_cons]

@[simp] lemma syncReturns_cons (o : Obs) (xs : List Obs) :
    syncReturns (o :: xs) = syncReturns xs + if o.isSyncReturn then 1 else 0 := by
  simp [syncReturns, List.countP_cons]

/-- The number of calls of `ContinueRequest`. -/
def continues (tr : List Obs) : ℕ := tr.countP Obs.isContinue

@[simp] lemma continues_nil : continues [] = 0 := rfl

@[simp] lemma continues_cons (o : Obs) (xs : List Obs) :
    continues (o :: xs) = continues xs + if o.isContinue then 1 else 0 := by
  simp [continues, List.countP_cons]

@[simp] lemma continues_append (xs ys : List Obs) : continues (xs ++ ys) = continues xs + continues ys :=
  List.countP_append

/-- The callbacks that flush when their user code has returned, whatever it did. -/
def Callback.endsOp : Callback → Bool
  | .onHttpCalloutDone | .onHttpStreamComplete | .onHttpStreamReset => true
  | _ => false

namespace State

/-- The flushes that are still to come from the operations accepted so far. -/
def pending (s : State) : ℕ :=
  s.callouts.length + s.streams.length + s.goroutine.toList.length + s.tasks.count .flush +
    s.callbacks.countP Callback.endsOp

/-- The flushes earned: one for each accepted operation, one for each synchronous handler. -/
def earned (s : State) : ℕ := starts s.trace + syncReturns s.trace

/-- The flushes spent or still to come. -/
def owed (s : State) : ℕ := s.pending + flushes s.trace

lemma count_eraseIdx_task {ts : List Task} {i : ℕ} {t : Task} (h : ts[i]? = some t) :
    ts.count .flush = (ts.eraseIdx i).count .flush + if t = .flush then 1 else 0 := by
  obtain ⟨hi, rfl⟩ := List.getElem?_eq_some_iff.mp h
  have hperm := (List.getElem_cons_eraseIdx_perm hi).count_eq .flush
  rw [← hperm, List.count_cons]
  simp

/-! ## The account -/

/-- User code owes what it earns: only an accepted operation adds to either side. -/
lemma Acts.owed_le {s s' : State} {who : Actor} {a : Act} {code : Code}
    (h : Acts s who a code s') : s'.owed + s.earned ≤ s.owed + s'.earned := by
  cases h with
  | reads => omega
  | calls c k rs =>
      simp [owed, earned, pending, Ledger.userCall, callbacks, Obs.isStart, Obs.isFlush,
        Obs.isSyncReturn]
  | startsGo =>
      simp [owed, earned, pending, Ledger.emit, Ledger.setWriter, callbacks, Obs.isStart,
        Obs.isFlush, Obs.isSyncReturn]
      omega
  | failsCallout | failsStream =>
      simp [owed, earned, pending, Ledger.emit, Ledger.setWriter, callbacks, Obs.isStart,
        Obs.isFlush, Obs.isSyncReturn]
  | startsCallout | startsStream =>
      simp [owed, earned, pending, Ledger.emit, Ledger.setWriter, callbacks, Obs.isStart,
        Obs.isFlush, Obs.isSyncReturn]
      omega
  | schedulesDo =>
      simp [owed, earned, pending, callbacks]

/-- A callback that ends an operation spends one flush; the others spend what they earn. -/
lemma finish_owed_le (s : State) {cb : Callback} (hcb : cb ≠ .onRequestBody) :
    (s.finish cb).owed + s.earned ≤
      s.owed + (s.finish cb).earned + if cb.endsOp then 1 else 0 := by
  cases cb with
  | onRequestHeaders =>
      simp only [finish, onRequestHeadersTail]
      split_ifs <;> simp [owed, earned, pending, ret, emit, flush, Ledger.emit, Ledger.flush,
        callbacks, Obs.isStart, Obs.isFlush, Obs.isSyncReturn] <;> omega
  | onRequestBody => exact absurd rfl hcb
  | onResponseBody endStream =>
      simp only [finish, onResponseBodyTail]
      split_ifs <;> simp [owed, earned, pending, ret, emit, Ledger.emit, callbacks, Obs.isStart,
        Obs.isFlush, Obs.isSyncReturn]
  | onResponseHeaders =>
      simp [finish, owed, earned, pending, ret, emit, Ledger.emit, callbacks, Obs.isStart,
        Obs.isFlush, Obs.isSyncReturn]
  | onHttpStreamEvent => simp [finish, Callback.endsOp]
  | onHttpCalloutDone | onHttpStreamComplete | onHttpStreamReset =>
      simp [finish, owed, earned, pending, setWriter, flush, Ledger.setWriter, Ledger.emit,
        Ledger.flush, callbacks, Obs.isStart, Obs.isFlush, Obs.isSyncReturn, Callback.endsOp]
      omega

/-- **The account.**  In every step the flushes spent or still to come grow by no more than the
flushes earned. -/
lemma credit_step {s s' : State} {l : Label} (h : Moves s l s')
    (hbody : .onRequestBody ∉ s.callbacks) :
    s'.owed + s.earned ≤ s.owed + s'.earned := by
  cases h with
  | calloutDropped id _ _ _ _ hid =>
      simp [owed, earned, pending, Ledger.emit, callbacks, Obs.isStart, Obs.isFlush,
        Obs.isSyncReturn, List.length_erase_of_mem hid]
  | calloutContinued id _ _ _ _ _ hid =>
      have := List.length_pos_of_mem hid
      have hends : Callback.onHttpCalloutDone.endsOp = true := rfl
      simp [owed, earned, pending, Ledger.emit, Ledger.setWriter, callbacks, Obs.isStart,
        Obs.isFlush, Obs.isSyncReturn, List.length_erase_of_mem hid, hends]
      omega
  | streamEndDropped ev _ hid =>
      simp [owed, earned, pending, Ledger.emit, callbacks, Obs.isStart, Obs.isFlush,
        Obs.isSyncReturn, List.length_erase_of_mem hid]
  | streamEndFlushed id _ hid =>
      have := List.length_pos_of_mem hid
      simp [owed, earned, pending, Ledger.emit, Ledger.flush, callbacks, Obs.isStart,
        Obs.isFlush, Obs.isSyncReturn, List.length_erase_of_mem hid]
      omega
  | streamEndRun ev cb fn _ hid _ hcb =>
      have := List.length_pos_of_mem hid
      have hends : cb.endsOp = true := by rcases hcb with rfl | rfl <;> rfl
      simp [owed, earned, pending, Ledger.emit, callbacks, Obs.isStart,
        Obs.isFlush, Obs.isSyncReturn, List.length_erase_of_mem hid, hends]
      omega
  | taskFlushed i c _ _ htask | taskCallout i c _ _ _ _ _ _ htask =>
      have hcount := count_eraseIdx_task htask
      simp [owed, earned, pending, Ledger.emit, Ledger.flush, callbacks, Obs.isStart,
        Obs.isFlush, Obs.isSyncReturn] at hcount ⊢
      omega
  | workerActs c f rest code s₁ hstack _ _ _ hact =>
      have hle := hact.owed_le
      have hsame := hact.sameHost.stack
      simpa [owed, earned, pending, callbacks, hsame, hstack] using hle
  | goroutineActs c code₀ code s₁ hgo _ hact =>
      have hle := hact.owed_le
      have hone : s₁.goroutine.toList.length = 1 := by
        generalize s.nextAct (.goroutine c) = a at hact
        cases hact <;> simp [hgo]
      simp [owed, earned, pending, callbacks, hone] at hle ⊢
      omega
  | calloutReturned c cb rest init k hstack | streamReturned c cb rest init k hstack =>
      simp [owed, earned, pending, Ledger.setWriter, callbacks, hstack]
  | callbackFinished c cb rest hstack =>
      have hcb : cb ≠ .onRequestBody := by
        rintro rfl
        exact hbody (by simp [callbacks, hstack])
      have hle := finish_owed_le { s with stack := rest } hcb
      have hcount : s.callbacks.countP Callback.endsOp =
          (rest.map (·.cb)).countP Callback.endsOp + if cb.endsOp then 1 else 0 := by
        simp [callbacks, hstack, List.countP_cons]
      simp only [owed, earned, pending, callbacks] at hle hcount ⊢
      omega
  | goroutineFinished c hgo =>
      simp [owed, earned, pending, Ledger.emit, callbacks, Obs.isStart, Obs.isFlush,
        Obs.isSyncReturn, hgo]
      omega
  | responseHeadersObserved =>
      split_ifs <;>
        simp [owed, earned, pending, Ledger.emit, callbacks, Obs.isStart, Obs.isFlush,
          Obs.isSyncReturn, Callback.endsOp]
  | streamCompleteFlushed =>
      simp [owed, earned, pending, Ledger.emit, Ledger.flushResponseMutations, Ledger.setWriter,
        callbacks, Obs.isStart, Obs.isFlush, Obs.isSyncReturn]
  | _ =>
      simp [owed, earned, pending, Ledger.emit, Ledger.acquireWriter, Ledger.setWriter, callbacks,
        deliverDo, Obs.isStart, Obs.isFlush, Obs.isSyncReturn, Callback.endsOp]

/-! ## What one step adds to each count -/

lemma Acts.starts_eq {s s' : State} {who : Actor} {a : Act} {code : Code}
    (h : Acts s who a code s') :
    starts s'.trace = starts s.trace + if a.isAccept then 1 else 0 := by
  cases h <;> simp [Ledger.emit, Ledger.setWriter, Ledger.userCall, Obs.isStart, Act.isAccept]

/-- An operation is recorded as started exactly when the step accepts one. -/
lemma starts_step {s s' : State} {l : Label} (h : Moves s l s') :
    starts s'.trace = starts s.trace + if s.acceptsOp l then 1 else 0 := by
  have hsilent : s.acceptsOp l = false →
      starts s'.trace = starts s.trace + if s.acceptsOp l then 1 else 0 := by
    intro hacc
    obtain ⟨obs, htr, hobs⟩ := h.emits
    have hnone : starts obs = 0 := by
      rw [starts, List.countP_eq_zero]
      intro o ho hstart
      have hemits := hobs o ho
      cases o <;> simp [Obs.isStart] at hstart
      simp [acceptsOp, hemits.2, Act.isAccept] at hacc
    simp [htr, hnone, hacc]
  cases h with
  | workerActs _ _ _ _ _ _ _ _ _ hact => exact hact.starts_eq
  | goroutineActs _ _ _ _ _ _ hact => exact hact.starts_eq
  | callbackFinished c cb rest hstack | calloutReturned c cb rest _ _ hstack
  | streamReturned c cb rest _ _ hstack =>
      exact hsilent (by simp [acceptsOp, nextAct, hstack, act, Act.isAccept])
  | goroutineFinished c hgo =>
      exact hsilent (by simp [acceptsOp, nextAct, hgo, act, Act.isAccept])
  | _ => exact hsilent rfl

lemma flushes_quiet {obs : List Obs} (h : ∀ o ∈ obs, o.isQuiet = true) :
    flushes obs = 0 ∧ continues obs = 0 := by
  simp only [flushes, continues, List.countP_eq_zero]
  constructor <;> intro o ho <;> have hq := h o ho
  · cases o <;> simp_all [Obs.isFlush, Obs.isQuiet]
  · rcases o with c | _
    · cases c <;> simp_all [Obs.isContinue, Obs.isQuiet, HandleCall.isQuiet]
    all_goals simp [Obs.isContinue]

lemma continues_calls {cs : List HandleCall} (h : .continueRequest ∉ cs) :
    continues (cs.map .call) = 0 := by
  rw [continues, List.countP_eq_zero]
  intro o ho
  obtain ⟨c, hc, rfl⟩ := List.mem_map.mp ho
  cases c <;> simp_all [Obs.isContinue]

/-- A flush calls `ContinueRequest` once at most, and not at all when it was not asked to. -/
lemma continues_flush (w : Writer) (b : Bool) :
    continues ((w.flush b).map .call) ≤ if b then 1 else 0 := by
  cases hrej : w.rejected with
  | true =>
      have hnone : continues ((w.flush b).map .call) = 0 :=
        continues_calls (by simp [Writer.flush_rejected hrej])
      omega
  | false =>
      have hnone : continues (w.mutationCalls.map .call) = 0 :=
        continues_calls fun hmem => by
          simpa [HandleCall.isMutation] using Writer.isMutation_of_mem hmem
      rw [Writer.flush_open hrej, List.map_append, continues_append, hnone]
      cases b <;> simp [continues, Obs.isContinue]

/-- `flush` is recorded exactly when the step calls it, and only then `ContinueRequest` may be. -/
lemma flushes_step {s s' : State} {l : Label} (h : Moves s l s') :
    flushes s'.trace = flushes s.trace + (if s.runsFlush l then 1 else 0) ∧
      continues s'.trace ≤ continues s.trace + if s.runsFlush l then 1 else 0 := by
  have hc := h.changes
  generalize s'.toLedger = g at hc ⊢
  cases hc with
  | quiet hflush hq | acquired hflush _ hq =>
      obtain ⟨obs, htr, hobs⟩ := hq.trace
      obtain ⟨hf, hk⟩ := flushes_quiet hobs
      simp [htr, hflush, hf, hk, Ledger.acquireWriter, Ledger.setWriter]
  | called who c hflush =>
      have hk : continues ((s.writer.userCall ⟨s.request, s.seq⟩ c).2.map .call) = 0 := by
        cases c with
        | send statusCode body =>
            simp only [Writer.userCall, Writer.sendBytes]
            split_ifs <;> rfl
        | _ => rfl
      simp [Ledger.userCall, hflush, Obs.isFlush, Obs.isContinue, hk]
  | @flushed g₁ g b hflush h₁ hq =>
      obtain ⟨obs₁, htr₁, hobs₁⟩ := h₁.trace
      obtain ⟨obs, htr, hobs⟩ := hq.trace
      obtain ⟨hf₁, hk₁⟩ := flushes_quiet hobs₁
      obtain ⟨hf, hk⟩ := flushes_quiet hobs
      have hle := continues_flush g₁.writer b
      have hle' : (if b then 1 else 0) ≤ 1 := by split_ifs <;> omega
      have hflushes : flushes g.trace = flushes s.trace + 1 := by
        simp [htr, Ledger.flush, Ledger.emit, htr₁, hf₁, hf, Obs.isFlush]
      have hcontinues : continues g.trace =
          continues s.trace + continues ((g₁.writer.flush b).map .call) := by
        simp [htr, Ledger.flush, Ledger.emit, htr₁, hk₁, hk, Obs.isContinue]
      rw [hflush, if_pos rfl]
      omega
  | responseFlushed hl _ _ hq =>
      obtain ⟨obs, htr, hobs⟩ := hq.trace
      obtain ⟨hf, hk⟩ := flushes_quiet hobs
      have hcalls : continues (s.writer.flushResponseMutations.2.map .call) = 0 :=
        continues_calls fun hmem => by
          simpa [HandleCall.isMutation] using Writer.isMutation_of_mem_flushResponse hmem
      simp [htr, Ledger.flushResponseMutations, Ledger.emit, Ledger.setWriter, hf,
        hk, hcalls, hl, runsFlush]

/-- The end of `OnRequestHeaders`: with an operation or a response it stops the request, otherwise
it flushes and lets the request go on. -/
lemma onRequestHeadersTail_trace (s : State) :
    (s.headersStatus = .statusStop ∧
        s.onRequestHeadersTail.trace = s.trace ++ [.returned (.requestHeaders .statusStop)]) ∨
      (s.headersStatus = .statusContinue ∧ s.writer.asyncStarted = false ∧
        s.onRequestHeadersTail.trace = s.trace ++ (.flushed false :: (s.writer.flush false).map .call)
          ++ [.returned (.requestHeaders .statusContinue)]) := by
  unfold onRequestHeadersTail
  split_ifs with hasync hresp
  · exact .inl ⟨by simp [headersStatus, hasync], rfl⟩
  · have hresp' : s.writer.responded = false := by simpa using hresp
    exact .inr ⟨by simp [headersStatus, hasync, hresp'], by simpa using hasync, rfl⟩
  · have hresp' : s.writer.responded = true := by simpa using hresp
    exact .inl ⟨by simp [headersStatus, hresp'], rfl⟩

/-- Only the end of `OnRequestHeaders` returns `HeadersStatusContinue`. -/
lemma syncReturns_step_of_not_finishes {s s' : State} {l : Label} (h : Moves s l s')
    (hfin : ¬ s.Finishes l .onRequestHeaders) : syncReturns s'.trace = syncReturns s.trace := by
  obtain ⟨obs, htr, hobs⟩ := h.emits
  have hnone : syncReturns obs = 0 := by
    rw [syncReturns, List.countP_eq_zero]
    intro o ho hsync
    have hemits := hobs o ho
    obtain rfl := Obs.eq_of_isSyncReturn hsync
    rcases hemits with ⟨-, -, hst⟩ | ⟨hf, -⟩
    · simp at hst
    · exact hfin hf
  simp [htr, hnone]

/-! ## At most one operation -/

/-- The condition of the result: an operation is accepted only when none has been accepted before,
and not from the response observer. -/
def OneOperation (s : State) (l : Label) : Prop :=
  s.acceptsOp l = true → starts s.trace = 0 ∧ ∀ cb ∈ s.callbacks, cb.isObserver = false

instance (s : State) (l : Label) : Decidable (s.OneOperation l) :=
  inferInstanceAs (Decidable (_ → _))

end State

/-- The activation is inside a call on the handle by which the host has accepted an operation. -/
def Frame.accepted (f : Frame) : Bool :=
  match f.code with
  | .inHttpCallout .success _ | .inStartHttpStream .success _ => true
  | _ => false

namespace State

/-- What holds while at most one operation is accepted. -/
structure ResumeInv (s : State) : Prop where
  shape : s.Shape
  noBody : s.NoBodyFrame
  paid : s.owed ≤ s.earned
  one : starts s.trace ≤ 1
  spent : continues s.trace + syncReturns s.trace ≤ flushes s.trace
  settled : 0 < syncReturns s.trace → starts s.trace = 0
  syncOnce : syncReturns s.trace ≤ 1
  running : .onRequestHeaders ∈ s.callbacks → syncReturns s.trace = 0
  flags : 0 < starts s.trace →
    s.writer.asyncStarted = true ∨ ∃ f ∈ s.stack, f.accepted = true
  events : ∀ cb ∈ s.callbacks, cb.isEvent = true → 0 < starts s.trace

namespace ResumeInv

variable {s s' : State} {l : Label}

lemma pending_le (hI : s.ResumeInv) : s.pending ≤ starts s.trace := by
  have hpaid := hI.paid
  have hspent := hI.spent
  simp only [owed, earned] at hpaid
  omega

lemma flushes_le (hI : s.ResumeInv) : flushes s.trace ≤ 1 := by
  have hpaid := hI.paid
  have hone := hI.one
  have honce := hI.syncOnce
  have hsettled := hI.settled
  simp only [owed, earned] at hpaid
  by_cases hsync : 0 < syncReturns s.trace
  · have := hsettled hsync
    omega
  · omega

/-- An operation that is accepted is accepted from the handler. -/
lemma acceptor (hI : s.ResumeInv) (hone : s.OneOperation l) (hacc : s.acceptsOp l = true) :
    .onRequestHeaders ∈ s.callbacks ∧ starts s.trace = 0 := by
  obtain ⟨hzero, hobs⟩ := hone hacc
  refine ⟨?_, hzero⟩
  cases l with
  | worker c =>
      rcases hstack : s.stack with _ | ⟨⟨code, cb⟩, rest⟩
      · simp [acceptsOp, nextAct, hstack, Act.isAccept] at hacc
      · have hmem : cb ∈ s.callbacks := by simp [callbacks, hstack]
        have hno := hobs cb hmem
        have hev := hI.events cb hmem
        cases cb with
        | onRequestHeaders => exact hmem
        | onRequestBody => exact absurd hmem hI.noBody.2
        | onResponseHeaders | onResponseBody => simp [Callback.isObserver] at hno
        | _ =>
            have := hev rfl
            omega
  | goroutine c =>
      rcases hgo : s.goroutine with _ | code
      · simp [acceptsOp, nextAct, hgo, Act.isAccept] at hacc
      · have hpending := hI.pending_le
        simp only [pending, hgo, Option.toList_some, List.length_singleton] at hpending
        omega
  | _ => simp [acceptsOp, nextAct, Act.isAccept] at hacc

/-- When the handler returns without an operation in flight, none has been accepted. -/
lemma starts_of_finishes (hI : s.ResumeInv) (hfin : s.Finishes l .onRequestHeaders)
    (hasync : s.writer.asyncStarted = false) : starts s.trace = 0 := by
  by_contra hne
  rcases hI.flags (by omega) with hflag | ⟨f, hf, hacc⟩
  · simp [hasync] at hflag
  · rw [hI.shape.finishes_stack hfin, List.mem_singleton] at hf
    simp [hf, Frame.accepted] at hacc

/-- `HeadersStatusContinue` is returned by the end of `OnRequestHeaders` and by nothing else, and
then with a flush that does not continue the request. -/
lemma sync_cases (hI : s.ResumeInv) (hm : Moves s l s') :
    syncReturns s'.trace = syncReturns s.trace ∨
      (starts s'.trace = 0 ∧ .onRequestHeaders ∈ s.callbacks ∧ s'.stack = [] ∧
        syncReturns s'.trace = syncReturns s.trace + 1 ∧
        flushes s'.trace = flushes s.trace + 1 ∧ continues s'.trace = continues s.trace) := by
  by_cases hfin : s.Finishes l .onRequestHeaders
  · obtain ⟨rest, hstack, rfl⟩ := hm.finishes hfin
    have hall := hI.shape.finishes_stack hfin
    obtain rfl : rest = [] := by rw [hstack] at hall; exact (List.cons.inj hall).2
    have hmem : .onRequestHeaders ∈ s.callbacks := by simp [callbacks, hstack]
    rcases onRequestHeadersTail_trace { s with stack := [] } with ⟨-, htr⟩ | ⟨-, hasync, htr⟩
    · left
      simp [finish, htr, Obs.isSyncReturn]
    · right
      have hstarts := hI.starts_of_finishes hfin hasync
      have hcontinues := continues_flush s.writer false
      refine ⟨?_, hmem, (finish_sameHost _ _).stack, ?_, ?_, ?_⟩
      · simp [finish, htr, hstarts, Obs.isStart]
      · simp [finish, htr, Obs.isSyncReturn]
      · simp [finish, htr, Obs.isFlush]
      · simp only [finish, htr, continues_append, continues_cons, continues_nil, Obs.isContinue]
        simp at hcontinues ⊢
        exact hcontinues
  · exact .inl (syncReturns_step_of_not_finishes hm hfin)

lemma counts_untouched (hs : s.Untouched) : starts s.trace = 0 ∧ syncReturns s.trace = 0 := by
  simp only [starts, syncReturns, List.countP_eq_zero]
  constructor <;> intro o ho <;> have hp := hs.prelude o ho
  · cases o <;> simp_all [Obs.isPrelude, Obs.isStart]
  · intro hsync
    obtain rfl := Obs.eq_of_isSyncReturn hsync
    simp [Obs.isPrelude] at hp

lemma settled_step (hI : s.ResumeInv) (hone : s.OneOperation l) (hm : Moves s l s')
    (hsync : 0 < syncReturns s'.trace) : starts s'.trace = 0 := by
  rcases hI.sync_cases hm with hsame | ⟨hzero, -⟩
  · have hsettled := hI.settled (hsame ▸ hsync)
    rw [starts_step hm, hsettled]
    by_cases hacc : s.acceptsOp l = true
    · have := hI.running (hI.acceptor hone hacc).1
      omega
    · simp [hacc]
  · exact hzero

lemma running_step (hI : s.ResumeInv) (hm : Moves s l s')
    (hmem : .onRequestHeaders ∈ s'.callbacks) : syncReturns s'.trace = 0 := by
  rcases hI.sync_cases hm with hsame | ⟨-, -, hstack, -⟩
  · rw [hsame]
    rcases hm.mem_callbacks hmem with hold | ⟨-, hphase, -⟩
    · exact hI.running hold
    · exact (counts_untouched (hI.shape.fresh hphase)).2
  · simp [callbacks, hstack] at hmem

lemma spent_step (hI : s.ResumeInv) (hm : Moves s l s') :
    continues s'.trace + syncReturns s'.trace ≤ flushes s'.trace := by
  have hspent := hI.spent
  rcases hI.sync_cases hm with hsame | ⟨-, -, -, hsync, hflushes, hcontinues⟩
  · obtain ⟨hflushes, hcontinues⟩ := flushes_step hm
    omega
  · omega

lemma events_step (hI : s.ResumeInv) (hm : Moves s l s') :
    ∀ cb ∈ s'.callbacks, cb.isEvent = true → 0 < starts s'.trace := by
  intro cb hcb hev
  have hmono : starts s.trace ≤ starts s'.trace := by
    rw [starts_step hm]
    omega
  rcases hm.mem_callbacks hcb with hold | hmay
  · exact Nat.lt_of_lt_of_le (hI.events cb hold hev) hmono
  · have hpending := hI.pending_le
    simp only [pending] at hpending
    cases cb with
    | onHttpCalloutDone | onHttpStreamEvent | onHttpStreamComplete | onHttpStreamReset =>
        have := List.length_pos_iff.mpr hmay.2.1
        omega
    | _ => simp [Callback.isEvent] at hev

/-- A flag that is set stays set, and an accepted operation whose call has not returned yet is still
on the stack or has set its flag. -/
lemma flags_keep (hI : s.ResumeInv) (hm : Moves s l s') (hstarts : 0 < starts s.trace) :
    s'.writer.asyncStarted = true ∨ ∃ f ∈ s'.stack, f.accepted = true := by
  have hphase : s.phase ≠ .awaitingHeaders := by
    intro hp
    have := (counts_untouched (hI.shape.fresh hp)).1
    omega
  rcases hI.flags hstarts with hflag | ⟨f, hf, hacc⟩
  · exact .inl ((hm.changes.flags hphase).2 hflag)
  · cases hm with
    | headersDeferred _ _ hp | headersHandled _ _ hp => exact absurd hp hphase
    | bodyHandled hacc' | responseHeadersObserved _ _ hacc' | responseBodyObserved _ _ _ hacc' =>
        simp [accepting_stack hacc'] at hf
    | calloutContinued | streamEventRun | streamEndRun =>
        exact .inr ⟨f, List.mem_cons_of_mem _ hf, hacc⟩
    | workerActs c f' rest code s₁ hstack hcode hhost hnil hact =>
        rw [hstack] at hf
        rcases List.mem_cons.mp hf with rfl | hf
        · exfalso
          rcases f with ⟨code, cb⟩
          cases code <;> simp [Frame.accepted, Frame.inHostCall] at hacc hhost
        · exact .inr ⟨f, List.mem_cons_of_mem _ hf, hacc⟩
    | calloutReturned c cb rest init k hstack =>
        rw [hstack] at hf
        rcases List.mem_cons.mp hf with rfl | hf
        · left
          cases init <;> simp [Frame.accepted] at hacc
          simp [Ledger.setWriter, Writer.calloutInit, Writer.asyncStarted]
        · exact .inr ⟨f, List.mem_cons_of_mem _ hf, hacc⟩
    | streamReturned c cb rest init k hstack =>
        rw [hstack] at hf
        rcases List.mem_cons.mp hf with rfl | hf
        · left
          cases init <;> simp [Frame.accepted] at hacc
          simp [Ledger.setWriter, Writer.streamInit, Writer.asyncStarted]
        · exact .inr ⟨f, List.mem_cons_of_mem _ hf, hacc⟩
    | callbackFinished c cb rest hstack =>
        rw [hstack] at hf
        rcases List.mem_cons.mp hf with rfl | hf
        · simp [Frame.accepted] at hacc
        · exact .inr ⟨f, by rwa [(finish_sameHost _ _).stack], hacc⟩
    | goroutineActs _ _ _ _ _ _ hact =>
        exact .inr ⟨f, by rwa [← hact.sameHost.stack] at hf, hacc⟩
    | _ => exact .inr ⟨f, hf, hacc⟩

/-- The operation a step accepts sets its flag or leaves its call on the stack. -/
lemma flags_accept (hI : s.ResumeInv) (hone : s.OneOperation l) (hm : Moves s l s')
    (hacc : s.acceptsOp l = true) :
    s'.writer.asyncStarted = true ∨ ∃ f ∈ s'.stack, f.accepted = true := by
  cases hm with
  | workerActs c f rest code s₁ hstack hcode hhost hnil hact =>
      simp only [acceptsOp] at hacc
      generalize s.nextAct (.worker c) = a at hacc hact
      cases hact with
      | startsGo => exact .inl (by simp [Ledger.emit, Ledger.setWriter, Writer.startGo,
          Writer.asyncStarted])
      | startsCallout | startsStream => exact .inr ⟨_, List.mem_cons_self, rfl⟩
      | _ => simp [Act.isAccept] at hacc
  | goroutineActs c code₀ code s₁ hgo =>
      have hpending := hI.pending_le
      have hzero := (hI.acceptor hone hacc).2
      simp only [pending, hgo, Option.toList_some, List.length_singleton] at hpending
      omega
  | callbackFinished c cb rest hstack | calloutReturned c cb rest _ _ hstack
  | streamReturned c cb rest _ _ hstack =>
      simp [acceptsOp, nextAct, hstack, act, Act.isAccept] at hacc
  | goroutineFinished c hgo => simp [acceptsOp, nextAct, hgo, act, Act.isAccept] at hacc
  | _ => simp [acceptsOp, nextAct, Act.isAccept] at hacc

/-- A step that accepts an operation only when it may preserves the invariant. -/
lemma step (hI : s.ResumeInv) (hone : s.OneOperation l) (h : s.step l = some s') :
    s'.ResumeInv := by
  have hm := step_moves h
  have hstarts := starts_step hm
  exact
    { shape := shape_step hI.shape h
      noBody := noBodyFrame_step hI.noBody h
      paid := by
        have hpaid := hI.paid
        have hcredit := credit_step hm hI.noBody.2
        omega
      one := by
        rw [hstarts]
        by_cases hacc : s.acceptsOp l = true
        · simp [hacc, (hI.acceptor hone hacc).2]
        · simpa [hacc] using hI.one
      spent := hI.spent_step hm
      settled := hI.settled_step hone hm
      syncOnce := by
        rcases hI.sync_cases hm with hsame | ⟨-, hmem, -, hsync, -⟩
        · rw [hsame]
          exact hI.syncOnce
        · have := hI.running hmem
          omega
      running := hI.running_step hm
      flags := fun hpos => by
        by_cases hacc : s.acceptsOp l = true
        · exact hI.flags_accept hone hm hacc
        · exact hI.flags_keep hm (by simpa [hstarts, hacc] using hpos)
      events := hI.events_step hm }

lemma new (r : ℕ) {d : FilterDef} (hd : d.bodyAware = false) : (State.new r d).ResumeInv where
  shape := shape_new r d
  noBody := ⟨hd, by simp [callbacks, State.new]⟩
  paid := by simp [owed, earned, pending, callbacks, State.new]
  one := by simp [State.new]
  spent := by simp [State.new]
  settled := by simp [State.new]
  syncOnce := by simp [State.new]
  running := by simp [State.new]
  flags := by simp [State.new]
  events := by simp [callbacks, State.new]

/-- A filter that is not body-aware stops the headers or lets them go on. -/
lemma statuses_step (hI : s.ResumeInv) (hm : Moves s l s')
    (hs : ∀ st, .returned (.requestHeaders st) ∈ s.trace → st = .statusStop ∨ st = .statusContinue) :
    ∀ st, .returned (.requestHeaders st) ∈ s'.trace → st = .statusStop ∨ st = .statusContinue := by
  intro st hst
  rcases hm.mem_trace hst with hold | ⟨-, hbody, -⟩ | ⟨-, rfl⟩
  · exact hs st hold
  · simp [hI.noBody.1] at hbody
  · unfold headersStatus
    split_ifs <;> simp

/-- As long as nothing is flushed no header is applied, and the one flush there may be applies each
header once. -/
lemma headers_step (hI' : s'.ResumeInv) (hm : Moves s l s') (hnum : s.QueuesNumbered)
    (hnone : flushes s.trace = 0 → appliedHeaders s.trace = [])
    (hnodup : (appliedHeaders s.trace).Nodup) :
    (flushes s'.trace = 0 → appliedHeaders s'.trace = []) ∧ (appliedHeaders s'.trace).Nodup := by
  have hflushes := (flushes_step hm).1
  have hle := hI'.flushes_le
  have hc := hm.changes
  generalize s'.toLedger = g at hc hflushes hle ⊢
  have hkeep : s.runsFlush l = false → appliedHeaders g.trace = appliedHeaders s.trace →
      (flushes g.trace = 0 → appliedHeaders g.trace = []) ∧ (appliedHeaders g.trace).Nodup := by
    intro hflush heq
    rw [heq]
    exact ⟨fun h => hnone (by simpa [hflush, h] using hflushes.symm), hnodup⟩
  cases hc with
  | quiet hflush hq | acquired hflush _ hq => exact hkeep hflush hq.appliedHeaders_eq
  | called who c hflush => exact hkeep hflush (Ledger.appliedHeaders_userCall _ who c)
  | @flushed g₁ g b hflush h₁ hq =>
      have hzero : flushes s.trace = 0 := by
        rw [hflush, if_pos rfl] at hflushes
        omega
      have happ : appliedHeaders g.trace = appliedHeaders ((g₁.writer.flush b).map .call) := by
        rw [hq.appliedHeaders_eq, Ledger.appliedHeaders_flush, h₁.appliedHeaders_eq, hnone hzero,
          List.nil_append]
      refine ⟨fun h => by rw [hflush, if_pos rfl] at hflushes; omega, ?_⟩
      rw [happ]
      cases hrej : g₁.writer.rejected with
      | true =>
          rw [Writer.appliedHeaders_flush_rejected hrej]
          exact List.nodup_nil
      | false =>
          rw [Writer.appliedHeaders_flush hrej, h₁.queues.queuedHeaders]
          exact hnum.headers.nodup
  | responseFlushed hl _ _ hq =>
      refine hkeep (by simp [hl, runsFlush]) ?_
      rw [hq.appliedHeaders_eq, Ledger.appliedHeaders_flushResponse]

end ResumeInv

end State

/-! ## Whole runs -/

/-- The request is resumed at most once, only if it was stopped, and with each queued header applied
at most once. -/
structure ResumesOnce (tr : List Obs) : Prop where
  once : continues tr ≤ 1
  stopped : .call .continueRequest ∈ tr →
    ∀ st, .returned (.requestHeaders st) ∈ tr → st = .statusStop
  headers : (appliedHeaders tr).Nodup

/-- What is proved together with the invariant. -/
structure State.ResumeFacts (s : State) : Prop where
  inv : s.ResumeInv
  numbered : s.QueuesNumbered
  statuses : ∀ st, .returned (.requestHeaders st) ∈ s.trace → st = .statusStop ∨ st = .statusContinue
  unapplied : flushes s.trace = 0 → appliedHeaders s.trace = []
  nodup : (appliedHeaders s.trace).Nodup

lemma State.ResumeFacts.step {s s' : State} {l : State.Label} (hf : s.ResumeFacts)
    (hone : s.OneOperation l) (h : s.step l = some s') : s'.ResumeFacts := by
  have hm := step_moves h
  have hI' := hf.inv.step hone h
  obtain ⟨hnone, hnodup⟩ :=
    ResumeInv.headers_step hI' hm hf.numbered hf.unapplied hf.nodup
  exact ⟨hI', queuesNumbered_step hf.numbered h, hf.inv.statuses_step hm hf.statuses, hnone, hnodup⟩

lemma State.ResumeFacts.resumesOnce {s : State} (hf : s.ResumeFacts) : ResumesOnce s.trace := by
  have hle := hf.inv.flushes_le
  have hspent := hf.inv.spent
  refine ⟨by omega, fun hmem st hst => ?_, hf.nodup⟩
  rcases hf.statuses st hst with h | rfl
  · exact h
  · have hcontinues : 0 < continues s.trace := List.countP_pos_iff.mpr ⟨_, hmem, rfl⟩
    have hsync : 0 < syncReturns s.trace := List.countP_pos_iff.mpr ⟨_, hst, rfl⟩
    omega

/-- **One operation, one resume.**  In every run in which at most one operation is accepted the
request is resumed at most once. -/
theorem resumesOnce_of_oneOperation (r : ℕ) (d : FilterDef) (hd : d.bodyAware = false)
    (ls : List State.Label) (s : State) (hrun : run State.step (State.new r d) ls = some s)
    (hone : Along State.step State.OneOperation (State.new r d) ls) : ResumesOnce s.trace := by
  have hnew : (State.new r d).ResumeFacts :=
    ⟨.new r hd, State.queuesNumbered_new r d, by simp [State.new], by simp [State.new, appliedHeaders],
      by simp [State.new, appliedHeaders]⟩
  have hfacts := run_invariant_of_along (I := State.ResumeFacts)
    (fun _ _ _ hf hC h => hf.step hC h) hnew hone hrun
  exact hfacts.resumesOnce

/-- A handler that queues a header and then starts a callout and a goroutine. -/
def calloutThenGo : HandlerFunc :=
  .call (.setRequestHeader (ascii "x-user") (ascii "alice"))
    (.httpCallout { cluster := ascii "auth", headers := [], body := [], timeoutMs := 250 }
      (fun _ _ _ => .ret) fun _ => .go .ret fun _ => .ret)

/-- The goroutine ends first, then the callout. -/
def bothOperationsEnd : List State.Label :=
  [.requestHeaders false, .worker {}, .worker {}, .worker {}, .worker {}, .worker {},
    .goroutine {}, .task 0 {}, .calloutDone 0 .success [] [], .worker {}]

/-- `Go` does not look at `calloutStarted`: both operations end in a flush, the request is resumed
twice and its header is set twice. -/
theorem calloutThenGo_resumes_twice :
    ¬ ∀ (r : ℕ) (d : FilterDef) (ls : List State.Label) (s : State), d.bodyAware = false →
      run State.step (State.new r d) ls = some s → ResumesOnce s.trace := by
  intro h
  have honce := (h 0 { handler := calloutThenGo } bothOperationsEnd _ rfl rfl).once
  exact absurd honce (by decide)

/-- A single callout, from the start of the request to its end. -/
def oneCallout : List State.Label :=
  [.requestHeaders false, .worker {}, .worker {}, .worker {}, .calloutDone 0 .success [] [],
    .worker {}]

/-- The result applied to a request with one callout. -/
theorem resumesOnce_oneCallout :
    ∃ s, run State.step (State.new 0 authFilter) oneCallout = some s ∧ ResumesOnce s.trace :=
  ⟨_, rfl, resumesOnce_of_oneOperation 0 authFilter rfl oneCallout _ rfl (by decide)⟩

end Luwes.Sahl
