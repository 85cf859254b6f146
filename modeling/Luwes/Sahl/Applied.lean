import Luwes.Sahl.Shape

/-!
# What is queued and what has been applied

A queued mutation carries the identity of the call that queued it, and so does the call on the
handle that applies it.  This module reads both off a request — the identities in the queues and the
identities in the trace — and says how a flush moves them from the one to the other: a Writer that
has responded applies nothing, any other Writer applies its whole queue *and keeps it*.  Only
`flushResponseMutations` empties what it applies.
-/

namespace Luwes.Sahl

open LabelledRun

/-! ## Applied -/

/-- The queued request header the event applies. -/
def Obs.appliedHeader : Obs → Option CallId
  | .call (.headerSet m) => some m.id
  | _ => none

/-- The queued metadata or metric update the event applies. -/
def Obs.appliedMutation : Obs → Option CallId
  | .call (.setMetadata m) => some m.id
  | .call (.recordHistogramValue m) | .call (.incrementCounterValue m) => some m.id
  | _ => none

/-- The request headers applied, in order. -/
def appliedHeaders (tr : List Obs) : List CallId := tr.filterMap Obs.appliedHeader

/-- The metadata and metric updates applied, in order. -/
def appliedMutations (tr : List Obs) : List CallId := tr.filterMap Obs.appliedMutation

@[simp] lemma appliedHeaders_append (xs ys : List Obs) :
    appliedHeaders (xs ++ ys) = appliedHeaders xs ++ appliedHeaders ys :=
  List.filterMap_append

@[simp] lemma appliedMutations_append (xs ys : List Obs) :
    appliedMutations (xs ++ ys) = appliedMutations xs ++ appliedMutations ys :=
  List.filterMap_append

lemma Obs.applies_nothing {o : Obs} (h : o.isQuiet = true) :
    o.appliedHeader = none ∧ o.appliedMutation = none := by
  cases o with
  | call c => cases c <;> first | exact ⟨rfl, rfl⟩ | simp [isQuiet, HandleCall.isQuiet] at h
  | _ => exact ⟨rfl, rfl⟩

lemma Ledger.Quietly.appliedHeaders_eq {g g' : Ledger} (h : g.Quietly g') :
    appliedHeaders g'.trace = appliedHeaders g.trace := by
  obtain ⟨obs, htr, hobs⟩ := h.trace
  have hnone : appliedHeaders obs = [] :=
    List.filterMap_eq_nil_iff.mpr fun o ho => (Obs.applies_nothing (hobs o ho)).1
  rw [htr, appliedHeaders_append, hnone, List.append_nil]

lemma Ledger.Quietly.appliedMutations_eq {g g' : Ledger} (h : g.Quietly g') :
    appliedMutations g'.trace = appliedMutations g.trace := by
  obtain ⟨obs, htr, hobs⟩ := h.trace
  have hnone : appliedMutations obs = [] :=
    List.filterMap_eq_nil_iff.mpr fun o ho => (Obs.applies_nothing (hobs o ho)).2
  rw [htr, appliedMutations_append, hnone, List.append_nil]

/-- The call applies something that was queued. -/
def HandleCall.isMutation : HandleCall → Bool
  | .headerSet _ | .setMetadata _ | .clearRouteCache | .recordHistogramValue _
  | .incrementCounterValue _ => true
  | _ => false

/-! ## Queued -/

namespace Writer

/-- The request headers in the queue. -/
def queuedHeaders (w : Writer) : List CallId := w.reqMuts.map (·.id)

/-- The metadata and metric updates in the queues. -/
def queuedMutations (w : Writer) : List CallId :=
  w.metaMuts.map (·.id) ++ w.counterMuts.map (·.id)

/-- The Writer has responded or holds a deferred response, so that a flush applies nothing. -/
def rejected (w : Writer) : Bool := w.localResp.isSome || w.responded

lemma SameQueues.rejected {w w' : Writer} (h : w.SameQueues w') : w'.rejected = w.rejected := by
  simp [Writer.rejected, h.localResp, h.responded]

lemma SameQueues.queuedHeaders {w w' : Writer} (h : w.SameQueues w') :
    w'.queuedHeaders = w.queuedHeaders := by
  simp [Writer.queuedHeaders, h.reqMuts]

lemma SameQueues.queuedMutations {w w' : Writer} (h : w.SameQueues w') :
    w'.queuedMutations = w.queuedMutations := by
  simp [Writer.queuedMutations, h.metaMuts, h.counterMuts]

lemma flush_rejected {w : Writer} (h : w.rejected = true) (b : Bool) :
    w.flush b = w.localResp.toList.map fun r => .sendLocalResponse r (ascii "sahl") := by
  cases hresp : w.localResp with
  | some r => simp [flush, hresp]
  | none =>
      have : w.responded = true := by simpa [rejected, hresp] using h
      simp [flush, hresp, this]

/-- The calls that apply the queues. -/
def mutationCalls (w : Writer) : List HandleCall :=
  w.reqMuts.map .headerSet ++ w.metaMuts.map .setMetadata ++
    (if w.routeCleared then [.clearRouteCache] else []) ++ w.counterMuts.map counterCall

lemma flush_open {w : Writer} (h : w.rejected = false) (b : Bool) :
    w.flush b = w.mutationCalls ++ if b then [.continueRequest] else [] := by
  obtain ⟨hresp, hnot⟩ : w.localResp = none ∧ w.responded = false := by simpa [rejected] using h
  simp [flush, hresp, hnot, mutationCalls]

lemma counterCall_isMutation (m : Queued CounterMut) : (counterCall m).isMutation = true := by
  unfold counterCall
  split_ifs <;> rfl

lemma isMutation_of_mem {w : Writer} {c : HandleCall} (h : c ∈ w.mutationCalls) :
    c.isMutation = true := by
  simp only [mutationCalls, List.mem_append, List.mem_map] at h
  rcases h with ((⟨m, -, rfl⟩ | ⟨m, -, rfl⟩) | h) | ⟨m, -, rfl⟩
  · rfl
  · rfl
  · split_ifs at h
    · rw [List.mem_singleton.mp h]
      rfl
    · simp at h
  · exact counterCall_isMutation m

lemma isMutation_of_mem_flushResponse {w : Writer} {c : HandleCall}
    (h : c ∈ w.flushResponseMutations.2) : c.isMutation = true := by
  simp only [flushResponseMutations, List.mem_append, List.mem_map] at h
  rcases h with ⟨m, -, rfl⟩ | ⟨m, -, rfl⟩
  · rfl
  · exact counterCall_isMutation m

lemma appliedHeaders_flush_rejected {w : Writer} (h : w.rejected = true) (b : Bool) :
    appliedHeaders ((w.flush b).map .call) = [] := by
  rw [flush_rejected h, appliedHeaders, List.filterMap_eq_nil_iff]
  simp [Obs.appliedHeader]

lemma appliedMutations_flush_rejected {w : Writer} (h : w.rejected = true) (b : Bool) :
    appliedMutations ((w.flush b).map .call) = [] := by
  rw [flush_rejected h, appliedMutations, List.filterMap_eq_nil_iff]
  simp [Obs.appliedMutation]

lemma appliedHeaders_headerSet (ms : List (Queued HeaderMut)) :
    appliedHeaders ((ms.map HandleCall.headerSet).map .call) = ms.map (·.id) := by
  induction ms with
  | nil => rfl
  | cons m ms ih => simpa [appliedHeaders, Obs.appliedHeader] using ih

lemma appliedHeaders_setMetadata (ms : List (Queued MetaMut)) :
    appliedHeaders ((ms.map HandleCall.setMetadata).map .call) = [] := by
  simp [appliedHeaders, Obs.appliedHeader]

lemma appliedHeaders_counterCall (ms : List (Queued CounterMut)) :
    appliedHeaders ((ms.map counterCall).map .call) = [] := by
  rw [appliedHeaders, List.filterMap_eq_nil_iff]
  simp only [List.mem_map, forall_exists_index, and_imp, forall_apply_eq_imp_iff₂]
  intro m _
  by_cases h : m.val.hist <;> simp [counterCall, h, Obs.appliedHeader]

lemma appliedMutations_headerSet (ms : List (Queued HeaderMut)) :
    appliedMutations ((ms.map HandleCall.headerSet).map .call) = [] := by
  simp [appliedMutations, Obs.appliedMutation]

lemma appliedMutations_setMetadata (ms : List (Queued MetaMut)) :
    appliedMutations ((ms.map HandleCall.setMetadata).map .call) = ms.map (·.id) := by
  induction ms with
  | nil => rfl
  | cons m ms ih => simpa [appliedMutations, Obs.appliedMutation] using ih

lemma appliedMutations_counterCall (ms : List (Queued CounterMut)) :
    appliedMutations ((ms.map counterCall).map .call) = ms.map (·.id) := by
  induction ms with
  | nil => rfl
  | cons m ms ih =>
      have hm : (Obs.call (counterCall m)).appliedMutation = some m.id := by
        by_cases h : m.val.hist <;> simp [counterCall, h, Obs.appliedMutation]
      simpa [appliedMutations, hm] using ih

/-- A flush of an open Writer, event by event: the other calls it makes apply nothing. -/
lemma filterMap_flush {w : Writer} (h : w.rejected = false) (b : Bool) {f : Obs → Option CallId}
    (hclear : f (.call .clearRouteCache) = none) (hcontinue : f (.call .continueRequest) = none) :
    ((w.flush b).map Obs.call).filterMap f =
      ((w.reqMuts.map HandleCall.headerSet).map Obs.call).filterMap f ++
        ((w.metaMuts.map HandleCall.setMetadata).map Obs.call).filterMap f ++
        ((w.counterMuts.map counterCall).map Obs.call).filterMap f := by
  have hcleared : ((if w.routeCleared then [HandleCall.clearRouteCache] else []).map
      Obs.call).filterMap f = [] := by
    split_ifs <;> simp [hclear]
  have hcontinued : ((if b then [HandleCall.continueRequest] else []).map
      Obs.call).filterMap f = [] := by
    split_ifs <;> simp [hcontinue]
  rw [flush_open h, mutationCalls]
  simp only [List.map_append, List.filterMap_append, hcleared, hcontinued, List.append_nil]

lemma appliedHeaders_flush {w : Writer} (h : w.rejected = false) (b : Bool) :
    appliedHeaders ((w.flush b).map .call) = w.queuedHeaders := by
  refine (filterMap_flush h b rfl rfl).trans ?_
  show appliedHeaders _ ++ appliedHeaders _ ++ appliedHeaders _ = _
  rw [appliedHeaders_headerSet, appliedHeaders_setMetadata, appliedHeaders_counterCall,
    List.append_nil, List.append_nil, queuedHeaders]

lemma appliedMutations_flush {w : Writer} (h : w.rejected = false) (b : Bool) :
    appliedMutations ((w.flush b).map .call) = w.queuedMutations := by
  refine (filterMap_flush h b rfl rfl).trans ?_
  show appliedMutations _ ++ appliedMutations _ ++ appliedMutations _ = _
  rw [appliedMutations_headerSet, appliedMutations_setMetadata, appliedMutations_counterCall,
    List.nil_append, queuedMutations]

lemma appliedMutations_flushResponse (w : Writer) :
    appliedMutations (w.flushResponseMutations.2.map .call) = w.queuedMutations := by
  simp only [flushResponseMutations, List.map_append, appliedMutations_append,
    appliedMutations_setMetadata, appliedMutations_counterCall, queuedMutations]

lemma appliedHeaders_flushResponse (w : Writer) :
    appliedHeaders (w.flushResponseMutations.2.map .call) = [] := by
  simp only [flushResponseMutations, List.map_append, appliedHeaders_append,
    appliedHeaders_setMetadata, appliedHeaders_counterCall, List.append_nil]

/-- A response is deferred only by a Writer that has responded. -/
lemma userCall_localResp {w : Writer} (hw : w.localResp.isSome = true → w.responded = true)
    (id : CallId) (c : UserCall) :
    (w.userCall id c).1.localResp.isSome = true → (w.userCall id c).1.responded = true := by
  have h := w.userCall_called id c
  generalize w.userCall id c = r at h ⊢
  cases h with
  | sends | defers => exact fun _ => rfl
  | _ => exact hw

/-- One call of user code queues at most one header, under its own identity. -/
lemma userCall_queuedHeaders (w : Writer) (id : CallId) (c : UserCall) :
    (w.userCall id c).1.queuedHeaders = w.queuedHeaders ∨
      (w.userCall id c).1.queuedHeaders = w.queuedHeaders ++ [id] := by
  have h := w.userCall_called id c
  generalize w.userCall id c = r at h ⊢
  cases h with
  | requestHeader => exact .inr (by simp [queuedHeaders])
  | _ => exact .inl rfl

/-- One call of user code queues at most one metadata or metric update, under its own identity. -/
lemma userCall_queuedMutations (w : Writer) (id : CallId) (c : UserCall) :
    (w.userCall id c).1.queuedMutations = w.queuedMutations ∨
      (w.userCall id c).1.queuedMutations.Perm (id :: w.queuedMutations) := by
  have hcounter : ∀ (m : CounterMut),
      (w.queueMetric id m).queuedMutations.Perm (id :: w.queuedMutations) := by
    intro m
    simp only [queueMetric, queuedMutations, List.map_append, List.map_cons, List.map_nil,
      ← List.append_assoc]
    exact List.perm_append_singleton _ _
  have h := w.userCall_called id c
  generalize w.userCall id c = r at h ⊢
  cases h with
  | metadata =>
      refine .inr ?_
      simp only [queuedMutations, List.map_append, List.map_cons, List.map_nil, List.append_assoc]
      exact List.perm_middle
  | counter | histogram => exact .inr (hcounter _)
  | _ => exact .inl rfl

end Writer

/-- The calls on the handle that a call of user code makes apply nothing that is queued. -/
lemma userCall_applies (w : Writer) (id : CallId) (c : UserCall) :
    appliedHeaders ((w.userCall id c).2.map .call) = [] ∧
      appliedMutations ((w.userCall id c).2.map .call) = [] := by
  have h := w.userCall_called id c
  generalize w.userCall id c = r at h ⊢
  cases h <;> exact ⟨rfl, rfl⟩

namespace Ledger

variable (g : Ledger)

lemma appliedHeaders_userCall (who : Actor) (c : UserCall) :
    appliedHeaders (g.userCall who c).trace = appliedHeaders g.trace := by
  have hcalls := (userCall_applies g.writer ⟨g.request, g.seq⟩ c).1
  refine List.filterMap_append.trans ?_
  show appliedHeaders g.trace ++ appliedHeaders ((g.writer.userCall _ c).2.map .call) = _
  rw [hcalls, List.append_nil]

lemma appliedMutations_userCall (who : Actor) (c : UserCall) :
    appliedMutations (g.userCall who c).trace = appliedMutations g.trace := by
  have hcalls := (userCall_applies g.writer ⟨g.request, g.seq⟩ c).2
  refine List.filterMap_append.trans ?_
  show appliedMutations g.trace ++ appliedMutations ((g.writer.userCall _ c).2.map .call) = _
  rw [hcalls, List.append_nil]

lemma appliedHeaders_flush (b : Bool) :
    appliedHeaders (g.flush b).trace =
      appliedHeaders g.trace ++ appliedHeaders ((g.writer.flush b).map .call) :=
  List.filterMap_append

lemma appliedMutations_flush (b : Bool) :
    appliedMutations (g.flush b).trace =
      appliedMutations g.trace ++ appliedMutations ((g.writer.flush b).map .call) :=
  List.filterMap_append

lemma appliedHeaders_flushResponse :
    appliedHeaders g.flushResponseMutations.trace = appliedHeaders g.trace := by
  refine List.filterMap_append.trans ?_
  show appliedHeaders g.trace ++ appliedHeaders (g.writer.flushResponseMutations.2.map .call) = _
  rw [Writer.appliedHeaders_flushResponse, List.append_nil]

lemma appliedMutations_flushResponse :
    appliedMutations g.flushResponseMutations.trace =
      appliedMutations g.trace ++ g.writer.queuedMutations := by
  refine List.filterMap_append.trans ?_
  show appliedMutations g.trace ++
    appliedMutations (g.writer.flushResponseMutations.2.map .call) = _
  rw [Writer.appliedMutations_flushResponse]

end Ledger

/-! ## Responding -/

/-- A call of `Send` or `SendBytes`. -/
def Obs.isSend : Obs → Bool
  | .user _ _ c => c.isSend
  | _ => false

/-- Nobody has called `Send` or `SendBytes`. -/
def NoSend (tr : List Obs) : Prop := ∀ o ∈ tr, o.isSend = false

lemma noSend_append {xs ys : List Obs} : NoSend (xs ++ ys) ↔ NoSend xs ∧ NoSend ys := by
  simp [NoSend, or_imp, forall_and]

lemma noSend_calls (cs : List HandleCall) : NoSend (cs.map .call) := by
  intro o ho
  obtain ⟨c, -, rfl⟩ := List.mem_map.mp ho
  rfl

lemma noSend_quiet {obs : List Obs} (h : ∀ o ∈ obs, o.isQuiet = true) : NoSend obs := by
  intro o ho
  have := h o ho
  cases o <;> simp_all [Obs.isSend, Obs.isQuiet]

/-- `Send` is the call that makes a Writer respond. -/
lemma Writer.userCall_responded (w : Writer) (id : CallId) (c : UserCall) :
    (w.userCall id c).1.responded = (w.responded || c.isSend) := by
  have h := w.userCall_called id c
  generalize w.userCall id c = r at h ⊢
  cases h <;> simp_all [UserCall.isSend, queueMetric]

/-- The Writer has responded exactly when somebody has called `Send`, and only then it holds a
deferred response. -/
structure SendAccount (g : Ledger) : Prop where
  localResp : g.writer.localResp.isSome = true → g.writer.responded = true
  sends : g.writer.responded = false ↔ NoSend g.trace

namespace SendAccount

variable {g g' : Ledger}

lemma rejected_false (hg : SendAccount g) (h : NoSend g.trace) : g.writer.rejected = false := by
  have hresp := hg.sends.mpr h
  have hlocal : g.writer.localResp.isSome = false := by
    by_contra hsome
    simp [hg.localResp (eq_true_of_ne_false hsome)] at hresp
  simp [Writer.rejected, hlocal, hresp]

lemma noSend (hg : SendAccount g) (h : g.writer.rejected = false) : NoSend g.trace := by
  simp only [Writer.rejected, Bool.or_eq_false_iff] at h
  exact hg.sends.mp h.2

lemma quietly (hg : SendAccount g) (h : g.Quietly g') : SendAccount g' := by
  obtain ⟨obs, htr, hobs⟩ := h.trace
  constructor
  · rw [h.queues.localResp, h.queues.responded]
    exact hg.localResp
  · rw [h.queues.responded, htr, noSend_append, hg.sends]
    exact (and_iff_left (noSend_quiet hobs)).symm

lemma userCall (hg : SendAccount g) (who : Actor) (c : UserCall) :
    SendAccount (g.userCall who c) := by
  refine ⟨Writer.userCall_localResp hg.localResp _ c, ?_⟩
  have hresponded : (g.userCall who c).writer.responded = (g.writer.responded || c.isSend) :=
    Writer.userCall_responded _ _ _
  have hnew : NoSend [.user who ⟨g.request, g.seq⟩ c] ↔ c.isSend = false := by
    simp [NoSend, Obs.isSend]
  have htr : (g.userCall who c).trace = g.trace ++ ([.user who ⟨g.request, g.seq⟩ c] ++
      (g.writer.userCall ⟨g.request, g.seq⟩ c).2.map .call) := rfl
  rw [hresponded, Bool.or_eq_false_iff, htr, noSend_append, noSend_append, hnew, hg.sends]
  exact and_congr_right fun _ => (and_iff_left (noSend_calls _)).symm

lemma flush (hg : SendAccount g) (b : Bool) : SendAccount (g.flush b) := by
  refine ⟨hg.localResp, ?_⟩
  have htr : (g.flush b).trace =
      g.trace ++ ([.flushed b] ++ (g.writer.flush b).map .call) := rfl
  have hnew : NoSend [.flushed b] := by simp [NoSend, Obs.isSend]
  rw [htr, noSend_append, noSend_append]
  exact hg.sends.trans (and_iff_left ⟨hnew, noSend_calls _⟩).symm

lemma flushResponseMutations (hg : SendAccount g) : SendAccount g.flushResponseMutations := by
  refine ⟨hg.localResp, ?_⟩
  have htr : g.flushResponseMutations.trace =
      g.trace ++ g.writer.flushResponseMutations.2.map .call := rfl
  rw [htr, noSend_append]
  exact hg.sends.trans (and_iff_left (noSend_calls _)).symm

lemma acquireWriter {s : State} (hs : s.Untouched) : SendAccount s.toLedger.acquireWriter := by
  have hnosend : NoSend s.trace := by
    intro o ho
    have hp := hs.prelude o ho
    rcases o with _ | ⟨who, id, c⟩ | _
    case user => cases c <;> simp_all [Obs.isSend, UserCall.isSend, Obs.isPrelude]
    all_goals rfl
  constructor
  · simp [Ledger.acquireWriter, Ledger.setWriter, Writer.reset]
  · simpa [Ledger.acquireWriter, Ledger.setWriter, Writer.reset] using hnosend

lemma new (r : ℕ) (d : FilterDef) : SendAccount (State.new r d).toLedger := by
  constructor <;> simp [State.new, Writer.zero, NoSend]

lemma changes {s : State} {l : State.Label} (hshape : s.Shape) (hs : SendAccount s.toLedger)
    (h : State.Changes s l g) : SendAccount g := by
  cases h with
  | quiet _ hq => exact hs.quietly hq
  | acquired _ hphase hq => exact (acquireWriter (hshape.fresh hphase)).quietly hq
  | called who c => exact hs.userCall who c
  | flushed b _ h₁ hq => exact ((hs.quietly h₁).flush b).quietly hq
  | responseFlushed _ _ _ hq => exact hs.flushResponseMutations.quietly hq

end SendAccount

/-! ## Identities are used once -/

/-- Every identity in the list is one of a call already made, and none occurs twice. -/
structure Numbered (seq : ℕ) (ids : List CallId) : Prop where
  nodup : ids.Nodup
  lt : ∀ id ∈ ids, id.seq < seq

lemma numbered_nil (seq : ℕ) : Numbered seq [] := ⟨List.nodup_nil, by simp⟩

lemma Numbered.cons {seq r : ℕ} {ids : List CallId} (h : Numbered seq ids) :
    Numbered (seq + 1) (⟨r, seq⟩ :: ids) where
  nodup := by
    refine List.nodup_cons.mpr ⟨fun hmem => ?_, h.nodup⟩
    exact Nat.lt_irrefl _ (h.lt _ hmem)
  lt := by
    intro id hid
    rcases List.mem_cons.mp hid with rfl | hid
    · exact Nat.lt_succ_self _
    · exact Nat.lt_succ_of_lt (h.lt id hid)

lemma Numbered.mono {seq seq' : ℕ} {ids : List CallId} (h : Numbered seq ids) (hle : seq ≤ seq') :
    Numbered seq' ids :=
  ⟨h.nodup, fun id hid => Nat.lt_of_lt_of_le (h.lt id hid) hle⟩

lemma Numbered.perm {seq : ℕ} {ids ids' : List CallId} (h : Numbered seq ids)
    (hperm : ids'.Perm ids) : Numbered seq ids' :=
  ⟨hperm.nodup_iff.mpr h.nodup, fun id hid => h.lt id (hperm.subset hid)⟩

namespace State

/-- The queues hold identities of calls already made, each once. -/
structure QueuesNumbered (s : State) : Prop where
  headers : Numbered s.seq s.writer.queuedHeaders
  mutations : Numbered s.seq s.writer.queuedMutations

lemma queuesNumbered_new (r : ℕ) (d : FilterDef) : (State.new r d).QueuesNumbered :=
  ⟨numbered_nil _, numbered_nil _⟩

lemma queuesNumbered_step {s s' : State} {l : Label} (hs : s.QueuesNumbered)
    (h : s.step l = some s') : s'.QueuesNumbered := by
  have hsame : ∀ {g : Ledger}, g.seq = s.seq → s.writer.SameQueues g.writer →
      Numbered g.seq g.writer.queuedHeaders ∧ Numbered g.seq g.writer.queuedMutations := by
    intro g hseq hq
    rw [hseq, hq.queuedHeaders, hq.queuedMutations]
    exact ⟨hs.headers, hs.mutations⟩
  suffices hg : Numbered s'.toLedger.seq s'.toLedger.writer.queuedHeaders ∧
      Numbered s'.toLedger.seq s'.toLedger.writer.queuedMutations from ⟨hg.1, hg.2⟩
  have hchanges := (step_moves h).changes
  generalize s'.toLedger = g at hchanges ⊢
  cases hchanges with
  | quiet _ hq => exact hsame hq.seq hq.queues
  | acquired _ _ hq =>
      rw [hq.queues.queuedHeaders, hq.queues.queuedMutations]
      exact ⟨numbered_nil _, numbered_nil _⟩
  | called who c =>
      constructor
      · rcases s.writer.userCall_queuedHeaders ⟨s.request, s.seq⟩ c with hids | hids
        · exact (hids ▸ hs.headers).mono (Nat.le_succ _)
        · exact hids ▸ (hs.headers.cons (r := s.request)).perm (List.perm_append_singleton _ _)
      · rcases s.writer.userCall_queuedMutations ⟨s.request, s.seq⟩ c with hids | hids
        · exact (hids ▸ hs.mutations).mono (Nat.le_succ _)
        · exact (hs.mutations.cons (r := s.request)).perm hids
  | flushed b _ h₁ hq =>
      exact hsame (hq.seq.trans h₁.seq) (h₁.queues.trans hq.queues)
  | responseFlushed _ _ _ hq =>
      rw [hq.seq, hq.queues.queuedHeaders, hq.queues.queuedMutations]
      exact ⟨hs.headers, numbered_nil _⟩

end State

end Luwes.Sahl
