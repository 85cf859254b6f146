import Luwes.Sahl.Mutations

/-!
# The metrics of a rejected request

`IncrementCounter` and `RecordHistogram` queue whether or not the Writer has responded, unlike
`SetRequestHeader` and `SetMetadata`, and the package documentation shows a handler that counts and
then sends.  Whether such a count reaches the handle is decided elsewhere: a flush of a Writer that
has responded applies nothing, so only a flush before the `Send`, or the observer's
`flushResponseMutations`, applies it.

`MetricAccount` relates the calls of user code, the counter queue and the calls on the handle; it is
kept by every step up to `OnStreamComplete`.
-/

namespace Luwes.Sahl

open LabelledRun History

/-! ## What the documentation promises -/

/-- The update a metric call queues. -/
def UserCall.metric : UserCall → Option CounterMut
  | .incrementCounter id n tags => some ⟨id, n, tags, false⟩
  | .recordHistogram id n tags => some ⟨id, n, tags, true⟩
  | _ => none

/-- Every metric call of the handler has been applied. -/
def MetricsApplied (tr : List Obs) : Prop :=
  ∀ id c m, .user (.worker .onRequestHeaders) id c ∈ tr → c.metric = some m →
    .call (Writer.counterCall ⟨m, id⟩) ∈ tr

/-- After the metric call a flush runs, and nobody has called `Send` before the flush. -/
def FlushedUnsent (tr : List Obs) (who : Actor) (id : CallId) (c : UserCall) : Prop :=
  ∃ pre b post, tr = pre ++ .flushed b :: post ∧ NoSend pre ∧ .user who id c ∈ pre

/-- Every metric call of the handler is followed by a flush that comes before the first `Send`. -/
def FlushedBeforeSend (tr : List Obs) : Prop :=
  ∀ id c m, .user (.worker .onRequestHeaders) id c ∈ tr → c.metric = some m →
    FlushedUnsent tr (.worker .onRequestHeaders) id c

lemma FlushedUnsent.append {tr obs : List Obs} {who : Actor} {id : CallId} {c : UserCall}
    (h : FlushedUnsent tr who id c) : FlushedUnsent (tr ++ obs) who id c := by
  obtain ⟨pre, b, post, rfl, hsend, hmem⟩ := h
  exact ⟨pre, b, post ++ obs, by simp, hsend, hmem⟩

/-! ## One call, one entry -/

namespace Writer

lemma userCall_counterMuts (w : Writer) (id : CallId) (c : UserCall) :
    (w.userCall id c).1.counterMuts = w.counterMuts ++ c.metric.toList.map fun m => ⟨m, id⟩ := by
  have h := w.userCall_called id c
  generalize w.userCall id c = r at h ⊢
  cases h with
  | cancelled _ hc => cases c <;> simp_all [UserCall.metric, UserCall.isCancelled]
  | counter | histogram => rfl
  | _ => simp [UserCall.metric]

/-- A flush of an open Writer applies the counters in its queue, and no others. -/
lemma counterCall_mem_flush {w : Writer} (h : w.rejected = false) (b : Bool)
    (x : Queued CounterMut) : counterCall x ∈ w.flush b ↔ x ∈ w.counterMuts := by
  have hx : ∀ c : HandleCall, c = counterCall x →
      (∃ m, c = .recordHistogramValue m) ∨ ∃ m, c = .incrementCounterValue m := by
    rintro c rfl
    unfold counterCall
    split_ifs
    · exact .inl ⟨x, rfl⟩
    · exact .inr ⟨x, rfl⟩
  rw [flush_open h, mutationCalls]
  simp only [List.mem_append, List.mem_map]
  constructor
  · rintro ((((⟨m, -, hm⟩ | ⟨m, -, hm⟩) | hc) | ⟨y, hy, hyx⟩) | hc)
    · rcases hx _ hm with ⟨_, h⟩ | ⟨_, h⟩ <;> simp at h
    · rcases hx _ hm with ⟨_, h⟩ | ⟨_, h⟩ <;> simp at h
    · split_ifs at hc
      · rcases hx _ (List.mem_singleton.mp hc).symm with ⟨_, h⟩ | ⟨_, h⟩ <;> simp at h
      · simp at hc
    · rwa [← counterCall_injective hyx]
    · split_ifs at hc
      · rcases hx _ (List.mem_singleton.mp hc).symm with ⟨_, h⟩ | ⟨_, h⟩ <;> simp at h
      · simp at hc
  · intro hmem
    exact .inl (.inr ⟨x, hmem, rfl⟩)

lemma counterCall_notMem_flush {w : Writer} (h : w.rejected = true) (b : Bool)
    (x : Queued CounterMut) : counterCall x ∉ w.flush b := by
  rw [flush_rejected h]
  unfold counterCall
  split_ifs <;> simp

lemma counterCall_notMem_userCall (w : Writer) (id : CallId) (c : UserCall)
    (x : Queued CounterMut) : counterCall x ∉ (w.userCall id c).2 := by
  have h := w.userCall_called id c
  generalize w.userCall id c = r at h ⊢
  unfold counterCall
  cases h <;> split_ifs <;> simp

end Writer

/-! ## The account -/

lemma quiet_facts {obs : List Obs} (h : ∀ o ∈ obs, o.isQuiet = true) :
    (∀ who id c, .user who id c ∉ obs) ∧ (∀ b, .flushed b ∉ obs) ∧
      ∀ x, .call (Writer.counterCall x) ∉ obs := by
  refine ⟨fun who id c hmem => ?_, fun b hmem => ?_, fun x hmem => ?_⟩
  · simpa [Obs.isQuiet] using h _ hmem
  · simpa [Obs.isQuiet] using h _ hmem
  · have hq := h _ hmem
    unfold Writer.counterCall at hq
    split_ifs at hq <;> simp [Obs.isQuiet, HandleCall.isQuiet] at hq

/-- The metric calls before a flush that comes before every `Send` are applied, in `tr`. -/
def FlushesApplied (tr : List Obs) (pre : List Obs) (o : Obs) : Prop :=
  ∀ b, o = .flushed b → NoSend pre → ∀ who id c m, .user who id c ∈ pre → c.metric = some m →
    .call (Writer.counterCall ⟨m, id⟩) ∈ tr

/-- What relates the calls of user code, the counter queue and the calls on the handle. -/
structure MetricAccount (g : Ledger) : Prop where
  sends : SendAccount g
  queued : ∀ who id c m, .user who id c ∈ g.trace → c.metric = some m →
    ⟨m, id⟩ ∈ g.writer.counterMuts
  origin : ∀ x ∈ g.writer.counterMuts, ∃ who c, .user who x.id c ∈ g.trace
  lt : ∀ who id c, .user who id c ∈ g.trace → id.seq < g.seq
  unique : ∀ who who' id c c', .user who id c ∈ g.trace → .user who' id c' ∈ g.trace →
    who = who' ∧ c = c'
  flushed : Always (FlushesApplied g.trace) g.trace
  applied : ∀ x, .call (Writer.counterCall x) ∈ g.trace →
    ∃ who c, FlushedUnsent g.trace who x.id c

namespace MetricAccount

/-- New events that contain no flush leave the account of the flushes as it is. -/
lemma flushed_append {tr obs : List Obs} (h : Always (FlushesApplied tr) tr)
    (hobs : ∀ b, .flushed b ∉ obs) : Always (FlushesApplied (tr ++ obs)) (tr ++ obs) := by
  refine always_append.mpr ⟨h.imp fun pre o _ hP b hb hsend who id c m hmem hm => ?_, ?_⟩
  · exact List.mem_append_left _ (hP b hb hsend who id c m hmem hm)
  · refine always_of_forall fun o ho pre b hb => ?_
    exact absurd (hb ▸ ho) (hobs b)

lemma users_kept {g g' : Ledger} (hg : MetricAccount g)
    (hold : ∀ {who id c}, .user who id c ∈ g'.trace → .user who id c ∈ g.trace)
    (hmono : ∀ o ∈ g.trace, o ∈ g'.trace)
    (hcounters : g'.writer.counterMuts = g.writer.counterMuts) (hseq : g'.seq = g.seq) :
    (∀ who id c m, .user who id c ∈ g'.trace → c.metric = some m →
        ⟨m, id⟩ ∈ g'.writer.counterMuts) ∧
      (∀ x ∈ g'.writer.counterMuts, ∃ who c, .user who x.id c ∈ g'.trace) ∧
      (∀ who id c, .user who id c ∈ g'.trace → id.seq < g'.seq) ∧
      ∀ who who' id c c', .user who id c ∈ g'.trace → .user who' id c' ∈ g'.trace →
        who = who' ∧ c = c' := by
  rw [hcounters, hseq]
  refine ⟨fun who id c m hmem hm => ?_, fun x hx => ?_, fun who id c hmem => ?_,
    fun who who' id c c' hmem hmem' => ?_⟩
  · exact hg.queued who id c m (hold hmem) hm
  · obtain ⟨who, c, hmem⟩ := hg.origin x hx
    exact ⟨who, c, hmono _ hmem⟩
  · exact hg.lt who id c (hold hmem)
  · exact hg.unique who who' id c c' (hold hmem) (hold hmem')

lemma quietly {g g' : Ledger} (hg : MetricAccount g) (h : g.Quietly g') : MetricAccount g' := by
  obtain ⟨obs, htr, hobs⟩ := h.trace
  obtain ⟨huser, hflush, hcounter⟩ := quiet_facts hobs
  have hold : ∀ {who id c}, .user who id c ∈ g'.trace → .user who id c ∈ g.trace := by
    intro who id c hmem
    rw [htr] at hmem
    exact (List.mem_append.mp hmem).resolve_right (huser who id c)
  obtain ⟨hqueued, horigin, hlt, hunique⟩ := hg.users_kept hold
    (fun o ho => htr ▸ List.mem_append_left _ ho) h.queues.counterMuts h.seq
  refine ⟨hg.sends.quietly h, hqueued, horigin, hlt, hunique, ?_, fun x hx => ?_⟩
  · rw [htr]
    exact flushed_append hg.flushed hflush
  · rw [htr] at hx ⊢
    have hx' := (List.mem_append.mp hx).resolve_right (hcounter x)
    obtain ⟨who, c, hflushed⟩ := hg.applied x hx'
    exact ⟨who, c, hflushed.append⟩

lemma userCall {g : Ledger} (hg : MetricAccount g) (who : Actor) (c : UserCall) :
    MetricAccount (g.userCall who c) := by
  have hcases : ∀ {w id c'}, .user w id c' ∈ (g.userCall who c).trace →
      .user w id c' ∈ g.trace ∨ (w = who ∧ id = ⟨g.request, g.seq⟩ ∧ c' = c) := by
    intro w id c' hmem
    simpa [Ledger.userCall] using hmem
  have hcounter : ∀ x, .call (Writer.counterCall x) ∈ (g.userCall who c).trace →
      .call (Writer.counterCall x) ∈ g.trace := by
    intro x hmem
    simpa [Ledger.userCall, Writer.counterCall_notMem_userCall] using hmem
  have hcounters : (g.userCall who c).writer.counterMuts =
      g.writer.counterMuts ++ c.metric.toList.map fun m => ⟨m, ⟨g.request, g.seq⟩⟩ :=
    Writer.userCall_counterMuts _ _ _
  constructor
  · exact hg.sends.userCall who c
  · intro w id c' m hmem hm
    rw [hcounters]
    rcases hcases hmem with hold | ⟨-, rfl, rfl⟩
    · exact List.mem_append_left _ (hg.queued w id c' m hold hm)
    · exact List.mem_append_right _ (by simp [hm])
  · intro x hx
    rw [hcounters] at hx
    rcases List.mem_append.mp hx with hold | hnew
    · obtain ⟨w, c', hmem⟩ := hg.origin x hold
      exact ⟨w, c', List.mem_append_left _ hmem⟩
    · obtain ⟨m, -, rfl⟩ := List.mem_map.mp hnew
      exact ⟨who, c, by simp [Ledger.userCall]⟩
  · intro w id c' hmem
    rcases hcases hmem with hold | ⟨-, rfl, -⟩
    · exact Nat.lt_succ_of_lt (hg.lt w id c' hold)
    · exact Nat.lt_succ_self _
  · intro w w' id c₁ c₂ hmem hmem'
    rcases hcases hmem with hold | ⟨rfl, rfl, rfl⟩ <;>
      rcases hcases hmem' with hold' | ⟨rfl, hid, rfl⟩
    · exact hg.unique w w' id c₁ c₂ hold hold'
    · have := hg.lt w id c₁ hold
      simp [hid] at this
    · have := hg.lt w' _ c₂ hold'
      simp at this
    · exact ⟨rfl, rfl⟩
  · exact flushed_append hg.flushed (by simp)
  · intro x hx
    obtain ⟨w, c', hflushed⟩ := hg.applied x (hcounter x hx)
    exact ⟨w, c', hflushed.append⟩

lemma flush {g : Ledger} (hg : MetricAccount g) (b : Bool) : MetricAccount (g.flush b) := by
  have htr : (g.flush b).trace =
      g.trace ++ .flushed b :: (g.writer.flush b).map .call := rfl
  have hold : ∀ {who id c}, .user who id c ∈ (g.flush b).trace → .user who id c ∈ g.trace := by
    intro who id c hmem
    simpa [htr] using hmem
  obtain ⟨hqueued, horigin, hlt, hunique⟩ := hg.users_kept hold
    (fun o ho => List.mem_append_left _ ho) rfl rfl
  refine ⟨hg.sends.flush b, hqueued, horigin, hlt, hunique, ?_, fun x hx => ?_⟩
  · rw [htr]
    refine always_append.mpr ⟨hg.flushed.imp fun pre o _ hP b' hb hsend who id c m hmem hm =>
      List.mem_append_left _ (hP b' hb hsend who id c m hmem hm), ?_⟩
    rw [always_cons]
    constructor
    · intro b' _ hsend who id c m hmem hm
      rw [List.append_nil] at hsend hmem
      have hq := hg.queued who id c m hmem hm
      refine List.mem_append_right _ (List.mem_cons_of_mem _ (List.mem_map_of_mem ?_))
      exact (Writer.counterCall_mem_flush (hg.sends.rejected_false hsend) b _).mpr hq
    · refine always_of_forall fun o ho pre b' hb => ?_
      obtain ⟨call, -, rfl⟩ := List.mem_map.mp ho
      simp at hb
  · rw [htr] at hx ⊢
    rcases List.mem_append.mp hx with hprev | hnew
    · obtain ⟨who, c, hflushed⟩ := hg.applied x hprev
      exact ⟨who, c, hflushed.append⟩
    · have hcall : Writer.counterCall x ∈ g.writer.flush b := by simpa using hnew
      have hrej : g.writer.rejected = false := by
        by_contra hrej
        exact Writer.counterCall_notMem_flush (eq_true_of_ne_false hrej) b x hcall
      obtain ⟨who, c, hmem⟩ := hg.origin x ((Writer.counterCall_mem_flush hrej b x).mp hcall)
      exact ⟨who, c, g.trace, b, _, rfl, hg.sends.noSend hrej, hmem⟩

lemma acquireWriter {s : State} (hg : MetricAccount s.toLedger) (hs : s.Untouched) :
    MetricAccount s.toLedger.acquireWriter := by
  have hnometric : ∀ who id c, .user who id c ∈ s.trace → c.metric = none := by
    intro who id c hmem
    have hp := hs.prelude _ hmem
    cases c <;> simp_all [UserCall.metric, Obs.isPrelude]
  exact
    { sends := .acquireWriter hs
      queued := fun who id c m hmem hm => by simp [hnometric who id c hmem] at hm
      origin := by simp [Ledger.acquireWriter, Ledger.setWriter, Writer.reset]
      lt := hg.lt
      unique := hg.unique
      flushed := hg.flushed
      applied := hg.applied }

end MetricAccount

namespace State

/-- The stream has not ended before a step that leaves it open, and that step does not end it. -/
lemma Moves.streamDone_false {s s' : State} {l : Label} (h : Moves s l s')
    (hdone : s'.streamDone = false) : s.streamDone = false ∧ l ≠ .streamComplete := by
  cases h with
  | streamCompleteFlushed | streamCompletePassed => simp at hdone
  | workerActs _ _ _ _ _ _ _ _ _ hact => exact ⟨by rwa [← hact.sameHost.streamDone], by simp⟩
  | goroutineActs _ _ _ _ _ _ hact => exact ⟨by rwa [← hact.sameHost.streamDone], by simp⟩
  | callbackFinished =>
      rw [(finish_sameHost _ _).streamDone] at hdone
      exact ⟨hdone, by simp⟩
  | _ => exact ⟨hdone, by simp⟩

/-- The account is kept as long as the stream has not ended. -/
def MetricInv (s : State) : Prop :=
  s.Shape ∧ (s.streamDone = false → MetricAccount s.toLedger)

lemma metricInv_step {s s' : State} {l : Label} (hI : s.MetricInv) (h : s.step l = some s') :
    s'.MetricInv := by
  obtain ⟨hshape, hacc⟩ := hI
  have hm := step_moves h
  refine ⟨shape_step hshape h, fun hdone => ?_⟩
  obtain ⟨hopen, hl⟩ := hm.streamDone_false hdone
  have hg := hacc hopen
  have hc := hm.changes
  generalize s'.toLedger = g at hc ⊢
  cases hc with
  | quiet _ hq => exact hg.quietly hq
  | acquired _ hphase hq => exact (hg.acquireWriter (hshape.fresh hphase)).quietly hq
  | called who c => exact hg.userCall who c
  | flushed b _ h₁ hq => exact ((hg.quietly h₁).flush b).quietly hq
  | responseFlushed hstream => exact absurd hstream hl

lemma metricInv_new (r : ℕ) (d : FilterDef) : (State.new r d).MetricInv := by
  refine ⟨shape_new r d, fun _ => ?_⟩
  constructor <;> first | exact .new r d | simp [State.new, Writer.zero]

/-- What `OnStreamComplete` does to the account: with an observer every counter in the queue is
applied, otherwise nothing changes. -/
lemma streamComplete_cases {s s' : State} (hs : s.Shape) (h : s.step .streamComplete = some s') :
    (s.filterDef.responseFn.isSome = true ∧
        (∀ who id c, .user who id c ∈ s'.trace → .user who id c ∈ s.trace) ∧
        ∀ x ∈ s.writer.counterMuts, .call (Writer.counterCall x) ∈ s'.trace) ∨
      (s.toLedger.Quietly s'.toLedger ∧
        (s.filterDef.responseFn.isSome = false ∨ ∀ o ∈ s.trace, o.isPrelude = true)) := by
  cases step_moves h with
  | streamCompleteFlushed _ _ hfn =>
      refine .inl ⟨hfn, fun who id c hmem => ?_, fun x hx => ?_⟩
      · simpa [Ledger.flushResponseMutations, Ledger.emit, Ledger.setWriter] using hmem
      · have hmem : Writer.counterCall x ∈ s.writer.flushResponseMutations.2 :=
          List.mem_append_right _ (List.mem_map_of_mem hx)
        simp only [Ledger.flushResponseMutations, Ledger.emit, List.mem_append, List.mem_map]
        exact .inl (.inr ⟨_, hmem, rfl⟩)
  | streamCompletePassed _ hacc hskip =>
      refine .inr ⟨Ledger.quietly_emit _ (by simp [Obs.isQuiet]), ?_⟩
      rcases hskip with hfn | hwriter
      · exact .inl hfn
      · right
        by_cases hphase : s.phase = .awaitingHeaders
        · exact (hs.fresh hphase).prelude
        · have := hs.hasWriter hphase
          simp [hwriter, (accepting_live hacc).2] at this

end State

/-! ## The exact condition -/

/-- Without `flushResponseMutations` the metrics applied are those that a flush before every `Send`
has applied. -/
lemma MetricAccount.applied_iff_flushed {g : Ledger} (hg : MetricAccount g) :
    MetricsApplied g.trace ↔ FlushedBeforeSend g.trace := by
  constructor
  · intro happ id c m hmem hm
    obtain ⟨who, c', pre, b, post, htr, hsend, hpre⟩ := hg.applied _ (happ id c m hmem hm)
    obtain ⟨rfl, rfl⟩ := hg.unique _ _ _ _ _ (by rw [htr]; exact List.mem_append_left _ hpre) hmem
    exact ⟨pre, b, post, htr, hsend, hpre⟩
  · intro hflushed id c m hmem hm
    obtain ⟨pre, b, post, htr, hsend, hpre⟩ := hflushed id c m hmem hm
    exact hg.flushed pre (.flushed b) post htr b rfl hsend _ id c m hpre hm

/-- **The exact condition.**  When the stream completes, every metric call of the handler has been
applied if and only if the filter has a response observer or a flush has followed each of them before
the first `Send`. -/
theorem metricsApplied_iff (r : ℕ) (d : FilterDef) (ls : List State.Label) (s : State)
    (hrun : run State.step (State.new r d) (ls ++ [.streamComplete]) = some s) :
    MetricsApplied s.trace ↔ d.responseFn.isSome = true ∨ FlushedBeforeSend s.trace := by
  obtain ⟨m, hm, hlast⟩ := run_concat.mp hrun
  have hopen : m.streamDone = false := by
    cases State.step_moves hlast with
    | streamCompleteFlushed _ hacc | streamCompletePassed _ hacc =>
        exact (State.accepting_live hacc).1
  have hI := run_invariant (fun _ _ _ => State.metricInv_step) (State.metricInv_new r d) hm
  have hg := hI.2 hopen
  have hdef : m.filterDef = d := filterDef_run hm
  rcases State.streamComplete_cases hI.1 hlast with ⟨hfn, huser, hcall⟩ | ⟨hq, hskip⟩
  · rw [hdef] at hfn
    simp only [hfn, true_or, iff_true]
    intro id c x hmem hx
    exact hcall _ (hg.queued _ id c x (huser _ id c hmem) hx)
  · have hiff := (hg.quietly hq).applied_iff_flushed
    rcases hskip with hfn | hprelude
    · rw [hdef] at hfn
      simpa [hfn] using hiff
    · have happ : MetricsApplied s.trace := by
        intro id c x hmem hx
        obtain ⟨obs, htr, hobs⟩ := hq.trace
        rw [htr] at hmem
        rcases List.mem_append.mp hmem with hold | hnew
        · have hp := hprelude _ hold
          cases c <;> simp_all [UserCall.metric, Obs.isPrelude]
        · exact absurd hnew ((quiet_facts hobs).1 _ id c)
      exact iff_of_true happ (.inr (hiff.mp happ))

/-- A handler that counts a rejected request and rejects it. -/
def countAndReject : FilterDef where
  handler := .call (.incrementCounter 1 1 []) (.call (.send 403 (ascii "forbidden")) .ret)

/-- A request that the handler rejects. -/
def rejectedRequest : List State.Label := [.requestHeaders true, .worker {}, .worker {}, .worker {}]

/-- The counter of a request that is counted and then rejected never reaches the handle. -/
theorem countAndReject_loses_metric :
    ¬ ∀ (r : ℕ) (d : FilterDef) (ls : List State.Label) (s : State),
      run State.step (State.new r d) (ls ++ [.streamComplete]) = some s →
      (∃ id statusCode body,
        .user (.worker .onRequestHeaders) id (.send statusCode body) ∈ s.trace) →
      MetricsApplied s.trace := by
  intro h
  have hsent : ∃ id statusCode body, .user (.worker .onRequestHeaders) id (.send statusCode body) ∈
      ((run State.step (State.new 0 countAndReject) (rejectedRequest ++ [.streamComplete])).map
        (·.trace)).getD [] := ⟨⟨0, 1⟩, 403, ascii "forbidden", by decide⟩
  have happ := h 0 countAndReject rejectedRequest _ rfl hsent
  exact absurd (happ ⟨0, 0⟩ (.incrementCounter 1 1 []) ⟨1, 1, [], false⟩ (by decide) rfl) (by decide)

/-- The condition evaluated on the same run. -/
theorem metricsApplied_iff_rejectedRequest :
    ∃ s, run State.step (State.new 0 countAndReject) (rejectedRequest ++ [.streamComplete]) = some s ∧
      (MetricsApplied s.trace ↔
        countAndReject.responseFn.isSome = true ∨ FlushedBeforeSend s.trace) :=
  ⟨_, rfl, metricsApplied_iff 0 countAndReject rejectedRequest _ rfl⟩

end Luwes.Sahl
