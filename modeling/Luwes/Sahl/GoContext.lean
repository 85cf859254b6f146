import Luwes.Sahl.StreamDone
import Luwes.Lib.History

/-!
# The context of `Go` (`sahl/writer.go`, `sahl/filter.go`, `sahl/do.go`)

`Go` hands its function "a context that is cancelled if the client disconnects".  Two things cancel it:
`OnStreamComplete`, and the goroutine itself at its end, when its function has returned.  `OnDestroy` gives
the Writer back to the pool without looking at `goCancel`.

After `OnDestroy` no scheduled function runs and no callout event is delivered, so a goroutine that is
blocked in `Do` then has its context to wait for and nothing else (`blocked_stuck`).  The context is
cancelled by then in exactly the runs in which `OnStreamComplete` has come after `Go`, or the goroutine
has ended, with the `cancel` that it has deferred (`goReleased_iff`): a stream that is reset, after which
"no further filter callbacks will be invoked for this stream except for the destroy callback", has neither.
-/

namespace Luwes.Sahl

open LabelledRun History

/-- The event cancels the context of `Go`. -/
def Obs.endsGo : Obs → Bool
  | .completed .go | .returned .streamComplete => true
  | _ => false

/-- `Go` starts its goroutine. -/
def Obs.startsGo : Obs → Bool
  | .started _ .go => true
  | _ => false

/-- After `Go` has started its goroutine, `OnStreamComplete` has come or the goroutine has ended. -/
def GoEnded : List Obs → Prop := Followed (·.startsGo = true) (·.endsGo = true)

/-- The event has nothing to do with `Go` and its context. -/
def Obs.passesGo (o : Obs) : Bool := !o.startsGo && !o.endsGo

namespace State

/-- A `select` of `Do` has a case to take. -/
def DoReady (s : State) (ch : ℕ) : Prop := s.ctxDone = true ∨ ((s.chans[ch]?).join).isSome = true

/-- The context of `Go` has been cancelled, and a goroutine that is blocked in `Do` can go on. -/
structure GoReleased (s : State) : Prop where
  cancelled : s.writer.goStarted = true → s.ctxDone = true
  released : ∀ ch k, s.goroutine = some (.inDo ch k) → s.DoReady ch

/-- A `Do` of the goroutine returns with the error of its context only when that is cancelled. -/
def WakesProperly (s : State) : Label → Prop
  | .goroutine c => c.cancel = true → s.ctxDone = true
  | _ => True

/-- **Nothing comes to help.**  After `OnDestroy` a goroutine that is blocked in `Do`, with its context
alive and its channel empty, stays there: no step is left. -/
theorem blocked_stuck {s : State} (hdestroyed : s.destroyed = true) (hstack : s.stack = [])
    {ch : ℕ} {k : Outcome DoResult → Prog} (hgo : s.goroutine = some (.inDo ch k))
    (hready : ¬ s.DoReady ch) {l : Label} (hl : s.WakesProperly l) : s.step l = none := by
  obtain ⟨hctx, hch⟩ : s.ctxDone = false ∧ (s.chans[ch]?).join = none := by
    simpa [DoReady] using hready
  cases l with
  | goroutine c =>
      have hcancel : c.cancel = false := by
        cases hc : c.cancel with
        | false => rfl
        | true => simp [hl hc] at hctx
      simp [step, hgo, goroutineStep, wake, hcancel, hch]
  | worker c => simp [step, hstack]
  | _ => simp [step, accepting, delivering, hdestroyed]

/-! ## What a step does to the context -/

/-- Nothing that concerns `Go` and its context happens between the two states. -/
structure GoKept (s s' : State) : Prop where
  goStarted : s'.writer.goStarted = s.writer.goStarted
  goCancel : s'.writer.goCancel = s.writer.goCancel
  ctxDone : s'.ctxDone = s.ctxDone
  trace : ∃ obs, s'.trace = s.trace ++ obs ∧ ∀ o ∈ obs, o.passesGo = true

/-- What a step does to the context of `Go`. -/
inductive GoMoves (s s' : State) : Prop
  | kept (h : s.GoKept s')
  | acquired (hphase : s.phase = .awaitingHeaders) (hgo : s'.writer.goStarted = false)
      (hcancel : s'.writer.goCancel.isSome = false) (hctx : s'.ctxDone = s.ctxDone)
      (o : Obs) (htrace : s'.trace = s.trace ++ [o]) (ho : o.passesGo = true)
  | started (hfree : s.writer.goStarted = false) (hcancel : s'.writer.goCancel.isSome = true)
      (hctx : s'.ctxDone = s.ctxDone) (who : Actor) (hgo : s'.writer.goStarted = true)
      (htrace : s'.trace = s.trace ++ [.started who .go])
  | returned (hgo : s.goroutine.isSome = true) (hwriter : s'.writer = s.writer)
      (hctx : s'.ctxDone = true) (htrace : s'.trace = s.trace ++ [.completed .go])
  | streamComplete (hlive : s.destroyed = false) (calls : List HandleCall)
      (hgo : s'.writer.goStarted = s.writer.goStarted)
      (hcancel : s'.writer.goCancel = s.writer.goCancel)
      (hctx : s'.ctxDone = (s.hasWriter && s.writer.goCancel.isSome || s.ctxDone))
      (htrace : s'.trace = s.trace ++ calls.map .call ++ [.returned .streamComplete])

lemma goKept_of {s s' : State} {obs : List Obs} (hctx : s'.ctxDone = s.ctxDone)
    (hgo : s'.writer.goStarted = s.writer.goStarted) (hcancel : s'.writer.goCancel = s.writer.goCancel)
    (htrace : s'.trace = s.trace ++ obs) (hobs : obs.all (·.passesGo) = true) : s.GoKept s' :=
  ⟨hgo, hcancel, hctx, obs, htrace, List.all_eq_true.mp hobs⟩

lemma goKept_silent {s s' : State} (hctx : s'.ctxDone = s.ctxDone)
    (hgo : s'.writer.goStarted = s.writer.goStarted) (hcancel : s'.writer.goCancel = s.writer.goCancel)
    (htrace : s'.trace = s.trace) : s.GoKept s' :=
  ⟨hgo, hcancel, hctx, [], by simp [htrace], by simp⟩

lemma passesGo_flush (b : Bool) (cs : List HandleCall) :
    (Obs.flushed b :: cs.map .call).all (·.passesGo) = true := by
  simp [Obs.passesGo, Obs.startsGo, Obs.endsGo]

lemma passesGo_finish {obs : List Obs} (h : obs.all recordsAtFinish = true) :
    obs.all (·.passesGo) = true :=
  List.all_eq_true.mpr fun o ho => by
    have hrecords := List.all_eq_true.mp h o ho
    cases o with
    | returned r => cases r <;> simp_all [recordsAtFinish, Obs.passesGo, Obs.startsGo, Obs.endsGo]
    | _ => simp_all [recordsAtFinish, Obs.passesGo, Obs.startsGo, Obs.endsGo]

lemma finish_goKept (s : State) (rest : List Frame) (cb : Callback) :
    s.GoKept ({ s with stack := rest }.finish cb) := by
  obtain ⟨fn, obs, heq, hobs⟩ := finish_eq { s with stack := rest } cb
  rw [heq]
  exact goKept_of rfl rfl rfl rfl (passesGo_finish hobs)

lemma GoMoves.congr {s s' s'' : State} (h : s.GoMoves s') (hwriter : s''.writer = s'.writer)
    (hctx : s''.ctxDone = s'.ctxDone) (htrace : s''.trace = s'.trace) : s.GoMoves s'' := by
  rcases h with ⟨hgo, hcancel, hctx', htr⟩ | _ | _ | _ | _
  · exact .kept ⟨hwriter ▸ hgo, hwriter ▸ hcancel, hctx ▸ hctx', htrace ▸ htr⟩
  all_goals rw [← hwriter, ← hctx, ← htrace] at *
  · exact .acquired ‹_› ‹_› ‹_› ‹_› _ ‹_› ‹_›
  · exact .started ‹_› ‹_› ‹_› _ ‹_› ‹_›
  · exact .returned ‹_› ‹_› ‹_› ‹_›
  · exact .streamComplete ‹_› _ ‹_› ‹_› ‹_› ‹_›

/-- A call of user code starts the goroutine or leaves the context alone. -/
lemma Acts.goMoves {s s' : State} {who : Actor} {a : Act} {code : Code}
    (h : Acts s who a code s') : s.GoMoves s' := by
  cases h with
  | reads => exact .kept (goKept_silent rfl rfl rfl rfl)
  | calls c k rs =>
      have hcalled := s.writer.userCall_called ⟨s.request, s.seq⟩ c
      have hgo : ∀ r, s.writer.Called ⟨s.request, s.seq⟩ c r →
          r.1.goStarted = s.writer.goStarted ∧ r.1.goCancel = s.writer.goCancel := by
        intro r hr
        cases hr <;> exact ⟨rfl, rfl⟩
      refine .kept (goKept_of rfl (hgo _ hcalled).1 (hgo _ hcalled).2 rfl ?_)
      simp [Obs.passesGo, Obs.startsGo, Obs.endsGo]
  | startsGo fn k hfree => exact .started hfree rfl rfl who rfl rfl
  | failsCallout | failsStream => exact .kept (goKept_of rfl rfl rfl rfl rfl)
  | startsCallout | startsStream =>
      exact .kept (goKept_of rfl rfl rfl (List.append_assoc _ _ _) rfl)
  | schedulesDo => exact .kept (goKept_silent rfl rfl rfl rfl)

/-- `OnStreamComplete` cancels the context if there is a Writer that has one. -/
lemma streamComplete_goMoves {s : State} (hacc : s.accepting = true) :
    s.GoMoves s.onStreamComplete := by
  have hlive := (accepting_live hacc).2
  have hcancel : ∀ t : State, t.cancelGo =
      { t with ctxDone := t.hasWriter && t.writer.goCancel.isSome || t.ctxDone } := by
    intro t
    unfold cancelGo
    split_ifs with h <;> simp [h]
  simp only [onStreamComplete, hcancel]
  split_ifs
  · exact .streamComplete hlive _ rfl rfl rfl rfl
  · exact .streamComplete hlive [] rfl rfl rfl (by simp [ret, emit, Ledger.emit])

/-- **What a step does to the context of `Go`.** -/
theorem goMoves {s s' : State} {l : Label} (h : s.step l = some s') : s.GoMoves s' := by
  cases step_moves h with
  | headersDeferred _ _ hphase | headersHandled _ _ hphase =>
      exact .acquired hphase rfl rfl rfl _ rfl rfl
  | streamCompleteFlushed | streamCompletePassed =>
      obtain ⟨hacc, h⟩ := by simpa [step] using h
      rw [← h]
      exact streamComplete_goMoves hacc
  | responseHeadersObserved =>
      refine .kept (goKept_of rfl rfl rfl rfl ?_)
      split_ifs <;> rfl
  | doAnswered | streamEventDropped | streamEventRun =>
      exact .kept (goKept_silent rfl rfl rfl rfl)
  | calloutReturned _ _ _ init | streamReturned _ _ _ init =>
      refine .kept (goKept_silent rfl ?_ ?_ rfl) <;> cases init <;> rfl
  | streamEndFlushed =>
      refine .kept (goKept_of rfl rfl rfl (List.append_assoc _ _ _) ?_)
      rw [List.all_append, passesGo_flush]
      rfl
  | taskFlushed => exact .kept (goKept_of rfl rfl rfl rfl (passesGo_flush _ _))
  | workerActs _ _ _ _ _ _ _ _ _ hact => exact hact.goMoves.congr rfl rfl rfl
  | goroutineActs _ _ _ _ _ _ hact => exact hact.goMoves.congr rfl rfl rfl
  | goroutineFinished c hgo => exact .returned (by simp [hgo]) rfl rfl rfl
  | callbackFinished => exact .kept (finish_goKept _ _ _)
  | _ => exact .kept (goKept_of rfl rfl rfl rfl rfl)

/-! ## The invariant -/

/-- The context is cancelled once the record says so, and only `Go` makes one. -/
structure GoInv (s : State) : Prop where
  shape : s.Shape
  ended : GoEnded s.trace ↔ (s.writer.goStarted = true → s.ctxDone = true)
  started : s.writer.goStarted = true → ∃ o ∈ s.trace, o.startsGo = true
  cancel : s.writer.goCancel.isSome = s.writer.goStarted
  ctx : s.ctxDone = true → s.writer.goStarted = true
  goroutine : s.goroutine.isSome = true → s.writer.goStarted = true

lemma goInv_new (r : ℕ) (d : FilterDef) : (State.new r d).GoInv where
  shape := shape_new r d
  ended := by simp [State.new, Writer.zero, GoEnded]
  started h := by simp [State.new, Writer.zero] at h
  cancel := rfl
  ctx h := by simp [State.new] at h
  goroutine h := by simp [State.new] at h

/-- Before `OnRequestHeaders` there is no goroutine to speak of. -/
lemma GoInv.fresh {s : State} (hI : s.GoInv) (hphase : s.phase = .awaitingHeaders) :
    s.writer.goStarted = false := by
  by_contra hgo
  obtain ⟨o, ho, hstarts⟩ := hI.started (by simpa using hgo)
  have hprelude := (hI.shape.fresh hphase).prelude o ho
  cases o <;> simp_all [Obs.startsGo, Obs.isPrelude]

lemma GoInv.goStarted_mono {s s' : State} {l : Label} (hI : s.GoInv) (h : s.step l = some s')
    (hgo : s.writer.goStarted = true) : s'.writer.goStarted = true := by
  have hphase : s.phase ≠ .awaitingHeaders := fun hphase => by simp [hI.fresh hphase] at hgo
  exact ((step_moves h).changes.flags hphase).1 hgo

lemma goEnded_append {tr obs : List Obs} (h : ∀ o ∈ obs, o.passesGo = true) :
    GoEnded (tr ++ obs) ↔ GoEnded tr :=
  followed_append fun o ho => by simpa [Obs.passesGo] using h o ho

lemma goEnded_ends {tr : List Obs} {o : Obs} (h : o.endsGo = true) : GoEnded (tr ++ [o]) := by
  refine followed_concat.mpr ⟨?_, .inl h⟩
  cases o <;> simp_all [Obs.endsGo, Obs.startsGo]

/-- **One step** keeps what the record says of the context. -/
theorem goInv_step {s s' : State} {l : Label} (hI : s.GoInv) (h : s.step l = some s') :
    s'.GoInv := by
  have hgoroutine : s'.goroutine.isSome = true → s'.writer.goStarted = true := by
    intro hgo
    rcases (step_moves h).goroutine_cases hgo with hold | hnew
    · exact hI.goStarted_mono h (hI.goroutine hold)
    · exact hnew
  have hshape := shape_step hI.shape h
  have hold : ∀ obs, s'.trace = s.trace ++ obs → s.writer.goStarted = true →
      ∃ o ∈ s'.trace, o.startsGo = true := by
    intro obs htrace hgo
    obtain ⟨o, ho, hstarts⟩ := hI.started hgo
    exact ⟨o, by simp [htrace, ho], hstarts⟩
  cases goMoves h with
  | kept hk =>
      obtain ⟨hgo, hcancel, hctx, obs, htrace, hobs⟩ := hk
      refine ⟨hshape, ?_, ?_, ?_, ?_, hgoroutine⟩
      · rw [htrace, goEnded_append hobs, hgo, hctx, hI.ended]
      · rw [hgo]
        exact hold obs htrace
      · rw [hcancel, hgo, hI.cancel]
      · rw [hctx, hgo]
        exact hI.ctx
  | acquired hphase hgo hcancel hctx o htrace ho =>
      have hfresh := hI.fresh hphase
      refine ⟨hshape, ?_, by simp [hgo], by rw [hcancel, hgo], ?_, hgoroutine⟩
      · rw [htrace, goEnded_append (by simpa using ho), hI.ended]
        simp [hgo, hfresh]
      · intro hdone
        have hnot := hI.ctx (hctx ▸ hdone)
        simp [hfresh] at hnot
  | started hfree hcancel hctx who hgo htrace =>
      refine ⟨hshape, ?_, fun _ => ⟨.started who .go, by simp [htrace], rfl⟩, by rw [hcancel, hgo],
        fun _ => hgo, hgoroutine⟩
      -- The context is a new one: nothing before this has cancelled it.
      have hopen : s'.ctxDone ≠ true := by
        intro hdone
        have hnot := hI.ctx (hctx ▸ hdone)
        simp [hfree] at hnot
      rw [htrace, GoEnded, followed_concat]
      simp [Obs.startsGo, hgo, hopen]
  | returned hgor hwriter hctx htrace =>
      rw [← hwriter] at hold
      refine ⟨hshape, ?_, hold _ htrace, ?_, fun _ => ?_, hgoroutine⟩
      · rw [htrace, hctx]
        exact iff_of_true (goEnded_ends rfl) fun _ => rfl
      · rw [hwriter, hI.cancel]
      · rw [hwriter]
        exact hI.goroutine hgor
  | streamComplete hlive calls hgo hcancel hctx htrace =>
      have hcancelled : s.writer.goStarted = true → s'.ctxDone = true := by
        intro hstarted
        have hphase : s.phase ≠ .awaitingHeaders := fun hp => by simp [hI.fresh hp] at hstarted
        have hwriter := hI.shape.hasWriter hphase
        simp [hctx, hwriter, hlive, hI.cancel, hstarted]
      refine ⟨hshape, ?_, ?_, by rw [hcancel, hgo, hI.cancel], ?_, hgoroutine⟩
      · rw [htrace, hgo]
        exact iff_of_true (goEnded_ends rfl) hcancelled
      · rw [hgo]
        exact hold _ (htrace.trans (List.append_assoc _ _ _))
      · intro hdone
        rw [hctx, hI.cancel, Bool.or_eq_true, Bool.and_eq_true] at hdone
        rw [hgo]
        exact hdone.elim And.right hI.ctx

end State

/-! ## Whole runs -/

/-- **The exact condition.**  When `OnDestroy` has given the Writer back, the context of `Go` is cancelled
and whoever waits for it in `Do` can go on, in exactly the runs in which `OnStreamComplete` has come
after `Go` or the goroutine has ended. -/
theorem goReleased_iff (r : ℕ) (d : FilterDef) (ls : List State.Label) (s : State)
    (hrun : run State.step (State.new r d) (ls ++ [.destroy]) = some s) :
    s.GoReleased ↔ GoEnded s.trace := by
  have hI : s.GoInv := run_invariant (fun _ _ _ => State.goInv_step) (State.goInv_new r d) hrun
  rw [hI.ended]
  constructor
  · exact State.GoReleased.cancelled
  · intro hcancelled
    refine ⟨hcancelled, fun ch k hgo => .inl (hcancelled (hI.goroutine ?_))⟩
    simp [hgo]

/-- A handler that asks a quota service from a goroutine. -/
def askQuota : HandlerFunc :=
  .go (.doCallout { cluster := ascii "quota", headers := [], body := [], timeoutMs := 250 }
    fun _ => .ret) fun _ => .ret

/-- The stream is reset while the goroutine is waiting for the answer. -/
def resetWhileWaiting : List State.Label :=
  [.requestHeaders true, .worker {}, .worker {}, .goroutine {}]

/-- The Writer is given back and the goroutine is left behind, with nothing that could wake it. -/
theorem resetWhileWaiting_leaks :
    (¬ ∀ (r : ℕ) (d : FilterDef) (ls : List State.Label) (s : State),
      run State.step (State.new r d) (ls ++ [.destroy]) = some s → s.GoReleased) ∧
    ∃ s, run State.step (State.new 0 { handler := askQuota }) (resetWhileWaiting ++ [.destroy]) =
        some s ∧ ∀ l, s.WakesProperly l → s.step l = none := by
  constructor
  · intro h
    have hreleased := h 0 { handler := askQuota } resetWhileWaiting _ rfl
    exact Bool.false_ne_true (hreleased.cancelled rfl)
  · refine ⟨_, rfl, fun l hl => ?_⟩
    refine State.blocked_stuck rfl rfl (show _ = some (Code.inDo 0 fun _ => .ret) from rfl) ?_ hl
    rintro (hctx | hch)
    · exact Bool.false_ne_true hctx
    · exact Bool.false_ne_true hch

/-- The downstream disconnects before the filter is destroyed. -/
def disconnectWhileWaiting : List State.Label := resetWhileWaiting ++ [.streamComplete]

/-- The condition evaluated on a run in which `OnStreamComplete` comes first. -/
theorem goReleased_iff_disconnect :
    ∃ s, run State.step (State.new 0 { handler := askQuota })
        (disconnectWhileWaiting ++ [.destroy]) = some s ∧ (s.GoReleased ↔ GoEnded s.trace) :=
  ⟨_, rfl, goReleased_iff 0 { handler := askQuota } disconnectWhileWaiting _ rfl⟩

end Luwes.Sahl
