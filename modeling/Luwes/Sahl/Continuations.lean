import Luwes.Sahl.DirectStyle

/-!
# Continuations

`HTTPCallout` is the other way to wait: no goroutine, but a continuation that the filter keeps until the host
has the answer.  The host may have it before `HttpCallout` returns, and then runs the continuation inside the
handler's call; or long after, and then between two callbacks; or when the stream is over, and then the filter
drops it.

`callout_direct` says what comes of it: in every run the effects of the request are a beginning of those of
the handler's calls and, once the host has answered, of the continuation's for that answer, in this order.
A callout that the host refuses is no callout: the request goes on with what the handler has asked for.
-/

namespace Luwes.Sahl

open LabelledRun

/-- A continuation whose code depends on the answer only. -/
abbrev CalloutCalls := HttpCalloutResult → HeaderSlice → List UnsafeEnvoyBuffer → List UserCall

/-- The continuation as it is handed over. -/
def CalloutCalls.continuation (fn : CalloutCalls) : HTTPCalloutFunc := fun result headers body =>
  straight (fn result headers body)

/-- A handler that makes some calls and leaves the rest to the continuation of a callout. -/
def calloutHandler (pre : List UserCall) (req : HTTPCalloutRequest) (fn : CalloutCalls) : HandlerFunc :=
  (straight pre).seq (.httpCallout req fn.continuation fun _ => .ret)

/-- What has become of the callout. -/
inductive CalloutOutcome
  /-- No answer has been heard. -/
  | pending
  /-- The host has not accepted it. -/
  | refused
  | answered (result : HttpCalloutResult) (headers : HeaderSlice) (body : List UnsafeEnvoyBuffer)
  deriving DecidableEq

namespace CalloutOutcome

/-- The host has said so. -/
def Given (ls : List State.Label) : CalloutOutcome → Prop
  | .pending => True
  | .refused => ∃ c, .worker c ∈ ls ∧ c.init ≠ .success
  | .answered result headers body => ∃ id, .calloutDone id result headers body ∈ ls

/-- The effects that the request then has. -/
def view (r : ℕ) (pre : List UserCall) (fn : CalloutCalls) : CalloutOutcome → List HostEvent
  | .pending => effectsOf ((Writer.start r).calls r 0 pre).2
  | .refused =>
    let x := (Writer.start r).calls r 0 pre
    effectsOf (x.2 ++ x.1.flush false)
  | .answered result headers body =>
    let x := (Writer.start r).calls r 0 (pre ++ fn result headers body)
    effectsOf (x.2 ++ x.1.flush true)

lemma Given.append {ls : List State.Label} {o : CalloutOutcome} (h : o.Given ls) (l : State.Label) :
    o.Given (ls ++ [l]) := by
  cases o with
  | pending => trivial
  | refused =>
      obtain ⟨c, hc, hinit⟩ := h
      exact ⟨c, List.mem_append_left _ hc, hinit⟩
  | answered result headers body =>
      obtain ⟨id, hid⟩ := h
      exact ⟨id, List.mem_append_left _ hid⟩

end CalloutOutcome

/-! ## Writers -/

namespace Writer

/-- The two differ in the details of a local reply and in what a callout keeps at most. -/
def Alike (w w' : Writer) : Prop :=
  w' = { w with
    localReplyDetails := w'.localReplyDetails
    calloutStarted := w'.calloutStarted
    calloutFn := w'.calloutFn }

variable {w w' w'' : Writer} {r n : ℕ}

lemma Agrees.alike (h : w.Agrees w') : w.Alike w' := by rw [Alike, h]

lemma Alike.trans (h : w.Alike w') (h' : w'.Alike w'') : w.Alike w'' := by rw [Alike, h', h]

lemma alike_calloutFn (w : Writer) (fn : Option HTTPCalloutFunc) : w.Alike { w with calloutFn := fn } := rfl

lemma alike_calloutInit (w : Writer) (init : HttpCalloutInitResult) : w.Alike (w.calloutInit init) := by
  rw [calloutInit]
  split_ifs <;> rfl

lemma Alike.flush (h : w.Alike w') (b : Bool) : w'.flush b = w.flush b := by
  rw [h]
  rfl

lemma Alike.userCall (h : w.Alike w') (id : CallId) (c : UserCall) :
    (w'.userCall id c).2 = (w.userCall id c).2 ∧ (w.userCall id c).1.Alike (w'.userCall id c).1 := by
  obtain ⟨d, b, fn, rfl⟩ : ∃ d b fn, w' = { w with
      localReplyDetails := d, calloutStarted := b, calloutFn := fn } := ⟨_, _, _, h⟩
  cases c with
  | send =>
      simp only [Writer.userCall, sendBytes]
      split_ifs <;> exact ⟨rfl, rfl⟩
  | setResponseHeader | setRequestHeader | setMetadata =>
      refine ⟨rfl, ?_⟩
      simp only [Writer.userCall, Writer.setResponseHeader, Writer.setRequestHeader, Writer.setMetadata]
      split_ifs <;> rfl
  | _ => exact ⟨rfl, rfl⟩

/-- With no callout started, a Writer like one that decides at once does so too. -/
lemma AtOnce.of_alike (h : w.AtOnce) (halike : w.Alike w') (hstarted : w'.calloutStarted = false) :
    w'.AtOnce := by
  obtain ⟨hasync, hresp⟩ := h
  simp only [asyncStarted, Bool.or_eq_false_iff] at hasync
  refine ⟨?_, by rw [halike]; exact hresp⟩
  rw [asyncStarted, hstarted, halike]
  simp [hasync.1.1, hasync.2]

end Writer

namespace State

/-! ## A run -/

/-- The frames under a continuation, or what is left of the handler after the host has accepted its
callout. -/
inductive Below (w : Writer) : List Frame → Prop
  | inside : Below w [⟨.inHttpCallout .success fun _ => .ret, .onRequestHeaders⟩]
  | returning (hstarted : w.calloutStarted = true) : Below w [⟨.prog .ret, .onRequestHeaders⟩]
  | returned : Below w []

/-- Where the request is. -/
inductive CalloutStage (r : ℕ) (pre : List UserCall) (req : HTTPCalloutRequest) (fn : CalloutCalls)
    (ls : List Label) (s : State) : Prop
  /-- Before `OnRequestHeaders`. -/
  | before (hphase : s.phase = .awaitingHeaders) (hstack : s.stack = []) (hcallouts : s.callouts = [])
      (heffects : effects s.trace = []) (hseq : s.seq = 0)
  /-- The handler has made the calls `done`. -/
  | handling (done rest : List UserCall) (hpre : pre = done ++ rest) (hphase : s.phase ≠ .awaitingHeaders)
      (hstack : s.stack = [⟨.prog (calloutHandler rest req fn), .onRequestHeaders⟩])
      (hwriter : s.hasWriter = true) (hcallouts : s.callouts = [])
      (hstarted : s.writer.calloutStarted = false)
      (halike : ((Writer.start r).calls r 0 done).1.Alike s.writer)
      (heffects : effects s.trace = effectsOf ((Writer.start r).calls r 0 done).2)
      (hseq : s.seq = done.length)
  /-- The host does not accept the callout. -/
  | failing (code : Code)
      (hcode : code = .prog .ret ∨ ∃ init, init ≠ .success ∧ code = .inHttpCallout init fun _ => .ret)
      (hphase : s.phase ≠ .awaitingHeaders) (hstack : s.stack = [⟨code, .onRequestHeaders⟩])
      (hcallouts : s.callouts = []) (hstarted : s.writer.calloutStarted = false)
      (halike : ((Writer.start r).calls r 0 pre).1.Alike s.writer)
      (hgiven : CalloutOutcome.refused.Given ls)
      (heffects : effects s.trace = CalloutOutcome.pending.view r pre fn)
  /-- The callout is in flight. -/
  | waiting (id : ℕ) (hphase : s.phase ≠ .awaitingHeaders) (hbelow : Below s.writer s.stack)
      (hcallouts : s.callouts = [id]) (hfn : s.writer.calloutFn = some fn.continuation)
      (halike : ((Writer.start r).calls r 0 pre).1.Alike s.writer)
      (heffects : effects s.trace = CalloutOutcome.pending.view r pre fn) (hseq : s.seq = pre.length)
  /-- The continuation has made the calls `done`. -/
  | continuing (result : HttpCalloutResult) (headers : HeaderSlice) (body : List UnsafeEnvoyBuffer)
      (done rest : List UserCall) (below : List Frame) (hdone : fn result headers body = done ++ rest)
      (hphase : s.phase ≠ .awaitingHeaders)
      (hstack : s.stack = ⟨.prog (straight rest), .onHttpCalloutDone⟩ :: below)
      (hbelow : Below s.writer below) (hwriter : s.hasWriter = true) (hcallouts : s.callouts = [])
      (hgiven : (CalloutOutcome.answered result headers body).Given ls)
      (halike : ((Writer.start r).calls r 0 (pre ++ done)).1.Alike s.writer)
      (heffects : effects s.trace = effectsOf ((Writer.start r).calls r 0 (pre ++ done)).2)
      (hseq : s.seq = (pre ++ done).length)
  /-- Nothing is left to do but to return. -/
  | settled (o : CalloutOutcome) (hphase : s.phase ≠ .awaitingHeaders) (hbelow : Below s.writer s.stack)
      (hcallouts : s.callouts = []) (hgiven : o.Given ls)
      (hover : o = .pending → s.streamDone = true ∨ s.hasWriter = false)
      (heffects : effects s.trace = o.view r pre fn)

/-- A request with such a handler and no response observer: nothing else runs for it. -/
structure Calling (r : ℕ) (pre : List UserCall) (req : HTTPCalloutRequest) (fn : CalloutCalls)
    (ls : List Label) (s : State) : Prop where
  filterDef : s.filterDef = { handler := calloutHandler pre req fn }
  request : s.request = r
  goroutine : s.goroutine = none
  tasks : s.tasks = []
  streams : s.streams = []
  stage : s.CalloutStage r pre req fn ls

variable {r : ℕ} {pre : List UserCall} {req : HTTPCalloutRequest} {fn : CalloutCalls} {ls : List Label}
  {s s' : State}

lemma Below.of_started {w w' : Writer} {below : List Frame} (h : Below w below)
    (hstarted' : w.calloutStarted = w'.calloutStarted) : Below w' below := by
  cases h with
  | inside => exact .inside
  | returning hstarted => exact .returning (hstarted'.symm.trans hstarted)
  | returned => exact .returned

lemma CalloutStage.aside (h : s.CalloutStage r pre req fn ls) {l : Label} (hs : s.Aside (ls ++ [l]) s') :
    s'.CalloutStage r pre req fn (ls ++ [l]) := by
  have hbelow' (hbelow : Below s.writer s.stack) : Below s'.writer s'.stack :=
    hs.stack.symm ▸ hbelow.of_started (by rw [hs.writer])
  cases h with
  | before hphase hstack hcallouts heffects hseq =>
      exact .before (hs.phase.mpr hphase) (hs.stack.trans hstack) (hs.callouts.trans hcallouts)
        (hs.effects.trans heffects) (hs.seq.trans hseq)
  | handling done rest hpre hphase hstack hwriter hcallouts hstarted halike heffects hseq =>
      exact .handling done rest hpre (mt hs.phase.mp hphase) (hs.stack.trans hstack)
        ((hs.hasWriter (by simp [hstack])).trans hwriter) (hs.callouts.trans hcallouts)
        (by rw [hs.writer]; exact hstarted) (halike.trans hs.writer.alike) (hs.effects.trans heffects)
        (hs.seq.trans hseq)
  | failing code hcode hphase hstack hcallouts hstarted halike hgiven heffects =>
      exact .failing code hcode (mt hs.phase.mp hphase) (hs.stack.trans hstack)
        (hs.callouts.trans hcallouts) (by rw [hs.writer]; exact hstarted) (halike.trans hs.writer.alike)
        (hgiven.append l) (hs.effects.trans heffects)
  | waiting id hphase hbelow hcallouts hfn halike heffects hseq =>
      exact .waiting id (mt hs.phase.mp hphase) (hbelow' hbelow) (hs.callouts.trans hcallouts)
        (by rw [hs.writer]; exact hfn) (halike.trans hs.writer.alike) (hs.effects.trans heffects)
        (hs.seq.trans hseq)
  | continuing result headers body done rest below hdone hphase hstack hbelow hwriter hcallouts hgiven
      halike heffects hseq =>
      exact .continuing result headers body done rest below hdone (mt hs.phase.mp hphase)
        (hs.stack.trans hstack) (hbelow.of_started (by rw [hs.writer]))
        ((hs.hasWriter (by simp [hstack])).trans hwriter) (hs.callouts.trans hcallouts) (hgiven.append l)
        (halike.trans hs.writer.alike) (hs.effects.trans heffects) (hs.seq.trans hseq)
  | settled o hphase hbelow hcallouts hgiven hover heffects =>
      exact .settled o (mt hs.phase.mp hphase) (hbelow' hbelow) (hs.callouts.trans hcallouts)
        (hgiven.append l) (fun ho => hs.dropped (hover ho)) (hs.effects.trans heffects)

lemma Calling.aside (h : s.Calling r pre req fn ls) {l : Label} (hs : s.Aside (ls ++ [l]) s') :
    s'.Calling r pre req fn (ls ++ [l]) where
  filterDef := hs.filterDef.trans h.filterDef
  request := hs.request.trans h.request
  goroutine := hs.goroutine.trans h.goroutine
  tasks := hs.noTasks h.tasks
  streams := hs.streams.trans h.streams
  stage := h.stage.aside hs

lemma Calling.stageOnly (h : s.Calling r pre req fn ls) {l : Label} (hdef : s'.filterDef = s.filterDef)
    (hrequest : s'.request = s.request) (hgo : s'.goroutine = s.goroutine) (htasks : s'.tasks = s.tasks)
    (hstreams : s'.streams = s.streams) (hstage : s'.CalloutStage r pre req fn (ls ++ [l])) :
    s'.Calling r pre req fn (ls ++ [l]) where
  filterDef := hdef.trans h.filterDef
  request := hrequest.trans h.request
  goroutine := hgo.trans h.goroutine
  tasks := htasks.trans h.tasks
  streams := hstreams.trans h.streams
  stage := hstage

/-! ### The worker -/

/-- The handler returns under its continuation, or after it. -/
lemma Below.step (h : Below s.writer s.stack) {c : Choice} (hstep : s.step (.worker c) = some s') :
    ∃ (stack : List Frame) (g : Ledger), s' = { s with stack := stack, toLedger := g } ∧
      Below g.writer stack ∧ s.writer.Alike g.writer ∧ g.writer.calloutFn = s.writer.calloutFn ∧
      g.request = s.request ∧ g.seq = s.seq ∧ effects g.trace = effects s.trace := by
  generalize hstack : s.stack = stack at h
  cases h with
  | inside =>
      rw [State.step, hstack] at hstep
      obtain rfl := Option.some.inj hstep
      exact ⟨_, _, rfl, .returning rfl, rfl, rfl, rfl, rfl, rfl⟩
  | returning hstarted =>
      rw [State.step, hstack] at hstep
      obtain rfl := Option.some.inj hstep
      rw [finish, onRequestHeadersTail, if_pos (by simp [Writer.asyncStarted, hstarted])]
      exact ⟨_, _, rfl, .returned, rfl, rfl, rfl, rfl, effects_silent rfl⟩
  | returned => simp [State.step, hstack] at hstep

lemma userCall_calls (hrequest : s.request = r) {done : List UserCall}
    (halike : ((Writer.start r).calls r 0 done).1.Alike s.writer)
    (heffects : effects s.trace = effectsOf ((Writer.start r).calls r 0 done).2)
    (hseq : s.seq = done.length) (call : UserCall) (who : Actor) :
    ((Writer.start r).calls r 0 (done ++ [call])).1.Alike (s.toLedger.userCall who call).writer ∧
      effects (s.toLedger.userCall who call).trace =
        effectsOf ((Writer.start r).calls r 0 (done ++ [call])).2 ∧
      (s.toLedger.userCall who call).seq = (done ++ [call]).length ∧
      (s.toLedger.userCall who call).writer.calloutStarted = s.writer.calloutStarted := by
  have hid : (⟨s.request, s.seq⟩ : CallId) = ⟨r, done.length⟩ := by rw [hrequest, hseq]
  obtain ⟨hcalls, halike'⟩ := halike.userCall ⟨r, done.length⟩ call
  have hconcat := Writer.calls_concat (w := Writer.start r) (r := r) (n := 0) done call
  rw [Nat.zero_add] at hconcat
  refine ⟨?_, ?_, ?_, (s.writer.userCall_flags _ call).2.1⟩
  · rw [hconcat]
    change Writer.Alike _ (s.writer.userCall ⟨s.request, s.seq⟩ call).1
    rw [hid]
    exact halike'
  · rw [Ledger.effects_userCall, hid, hcalls, hconcat, heffects, effectsOf_append]
  · change s.seq + 1 = _
    rw [hseq, List.length_append, List.length_singleton]

lemma Calling.handlerAsks (h : s.Calling r pre req fn ls) {c : Choice} (hphase : s.phase ≠ .awaitingHeaders)
    (hcallouts : s.callouts = []) (hstarted : s.writer.calloutStarted = false)
    (halike : ((Writer.start r).calls r 0 pre).1.Alike s.writer)
    (heffects : effects s.trace = effectsOf ((Writer.start r).calls r 0 pre).2) (hseq : s.seq = pre.length) :
    ({ s.beginCallout (.worker .onRequestHeaders) req fn.continuation c.init c.id with
        stack := [⟨.inHttpCallout c.init fun _ => .ret, .onRequestHeaders⟩] } : State).Calling r pre req fn
      (ls ++ [.worker c]) := by
  have halike' := halike.trans (s.writer.alike_calloutFn (some fn.continuation))
  have hasks : effects (s.trace ++ [.call (.httpCallout req)]) = CalloutOutcome.pending.view r pre fn :=
    (effects_silent rfl).trans heffects
  by_cases hinit : c.init = .success
  · rw [beginCallout, hinit, if_pos rfl]
    refine h.stageOnly rfl rfl rfl rfl rfl (.waiting c.id hphase .inside ?_ rfl halike' ?_ hseq)
    · change c.id :: s.callouts = [c.id]
      rw [hcallouts]
    · exact (effects_silent rfl).trans hasks
  · rw [beginCallout, if_neg hinit]
    exact h.stageOnly rfl rfl rfl rfl rfl (.failing _ (.inr ⟨c.init, hinit, rfl⟩) hphase rfl hcallouts
      hstarted halike' ⟨c, List.mem_append_right _ (List.mem_singleton_self _), hinit⟩ hasks)

/-- The end of `OnRequestHeaders`, when nothing has been started. -/
lemma finish_effects (h : s.writer.AtOnce) : ∃ obs, s.finish .onRequestHeaders = s.emit obs ∧
    effects obs = effectsOf (s.writer.flush false) := by
  rw [finish, onRequestHeadersTail, h.async]
  cases hr : s.writer.responded with
  | false =>
      refine ⟨([.flushed false] ++ (s.writer.flush false).map .call) ++
        [.returned (.requestHeaders .statusContinue)], ?_, ?_⟩
      · simp [ret, State.flush, Ledger.flush, emit, Ledger.emit]
      · rw [effects_append, effects_append, effects_calls]
        exact List.append_nil _
  | true =>
      have hnone : s.writer.flush false = [] := by simp [Writer.flush, h.localResp, hr]
      exact ⟨[.returned (.requestHeaders .statusStop)], rfl, by rw [hnone]; rfl⟩

lemma Calling.worker (h : s.Calling r pre req fn ls) {c : Choice} (hstep : s.step (.worker c) = some s') :
    s'.Calling r pre req fn (ls ++ [.worker c]) := by
  have hcalled (p : Prog) (call : UserCall) (hwriter : s.hasWriter = true) :
      s.nilWriter (.call call p) = false := by
    cases call <;> simp [nilWriter, hwriter]
  have hatOnce := Writer.AtOnce.calls (r := r) (n := 0) (Writer.atOnce_start r) pre
  cases h.stage with
  | before _ hstack => simp [State.step, hstack] at hstep
  | handling done rest hpre hphase hstack hwriter hcallouts hstarted halike heffects hseq =>
      rw [State.step, hstack] at hstep
      cases rest with
      | nil =>
          rw [List.append_nil] at hpre
          subst hpre
          have hpanics : s.writer.calloutPanics = false := by
            rw [Writer.calloutPanics, hstarted, (hatOnce.of_alike halike hstarted).goStarted]
            rfl
          simp only [workerStep, calloutHandler, straight, Prog.seq, nilWriter, hwriter, op, hpanics,
            Bool.not_true, Bool.false_eq_true, if_false] at hstep
          split_ifs at hstep with hid
          · simp at hstep
          · obtain rfl := Option.some.inj hstep
            exact h.handlerAsks hphase hcallouts hstarted halike heffects hseq
      | cons call rest =>
          have hcode : calloutHandler (call :: rest) req fn = .call call (calloutHandler rest req fn) := rfl
          simp only [workerStep, hcode, hcalled _ call hwriter, op, Option.map_some] at hstep
          obtain rfl := Option.some.inj hstep
          obtain ⟨rs, heq⟩ := userCall_eq s (.worker .onRequestHeaders) call
          obtain ⟨halike', heffects', hseq', hstarted'⟩ := userCall_calls h.request halike heffects hseq
            call (.worker .onRequestHeaders)
          rw [heq]
          exact h.stageOnly rfl rfl rfl rfl rfl (.handling (done ++ [call]) rest (by simp [hpre]) hphase rfl
            hwriter hcallouts (hstarted'.trans hstarted) halike' heffects' hseq')
  | failing code hcode hphase hstack hcallouts hstarted halike hgiven heffects =>
      rw [State.step, hstack] at hstep
      rcases hcode with rfl | ⟨init, hinit, rfl⟩
      · obtain rfl := Option.some.inj hstep
        have hnow : ({ s with stack := [] } : State).writer.AtOnce := hatOnce.of_alike halike hstarted
        obtain ⟨obs, heq, hobs⟩ := finish_effects hnow
        rw [heq]
        refine h.stageOnly rfl rfl rfl rfl rfl (.settled .refused hphase .returned hcallouts
          (hgiven.append _) (fun ho => by cases ho) ?_)
        rw [CalloutOutcome.view, effectsOf_append, ← halike.flush]
        exact (effects_append _ _).trans (congrArg₂ _ heffects hobs)
      · obtain rfl := Option.some.inj hstep
        refine h.stageOnly rfl rfl rfl rfl rfl (.failing _ (.inl rfl) hphase rfl hcallouts ?_
          (halike.trans (s.writer.alike_calloutInit init)) (hgiven.append _) heffects)
        change (s.writer.calloutInit init).calloutStarted = false
        rw [Writer.calloutInit, if_neg hinit]
        exact hstarted
  | waiting id hphase hbelow hcallouts hfn halike heffects hseq =>
      obtain ⟨stack, g, rfl, hbelow', halike', hfn', hrequest, hseq', heffects'⟩ := hbelow.step hstep
      exact h.stageOnly rfl hrequest rfl rfl rfl (.waiting id hphase hbelow' hcallouts (hfn'.trans hfn)
        (halike.trans halike') (heffects'.trans heffects) (hseq'.trans hseq))
  | continuing result headers body done rest below hdone hphase hstack hbelow hwriter hcallouts hgiven
      halike heffects hseq =>
      rw [State.step, hstack] at hstep
      cases rest with
      | nil =>
          rw [List.append_nil] at hdone
          obtain rfl := Option.some.inj hstep
          refine h.stageOnly rfl rfl rfl rfl rfl (.settled (.answered result headers body) hphase hbelow
            hcallouts (hgiven.append _) (fun ho => by cases ho) ?_)
          change effects (s.toLedger.flush true).trace = _
          rw [Ledger.effects_flush, heffects, halike.flush, CalloutOutcome.view, effectsOf_append, hdone]
      | cons call rest =>
          have hcode : straight (call :: rest) = .call call (straight rest) := rfl
          simp only [workerStep, hcode, hcalled _ call hwriter, op, Option.map_some] at hstep
          obtain rfl := Option.some.inj hstep
          obtain ⟨rs, heq⟩ := userCall_eq s (.worker .onHttpCalloutDone) call
          obtain ⟨halike', heffects', hseq', hstarted'⟩ := userCall_calls h.request halike heffects hseq
            call (.worker .onHttpCalloutDone)
          rw [List.append_assoc] at halike' heffects' hseq'
          rw [heq]
          exact h.stageOnly rfl rfl rfl rfl rfl (.continuing result headers body (done ++ [call]) rest below
            (by simp [hdone]) hphase rfl (hbelow.of_started hstarted'.symm) hwriter hcallouts
            (hgiven.append _) halike' heffects' hseq')
  | settled o hphase hbelow hcallouts hgiven hover heffects =>
      obtain ⟨stack, g, rfl, hbelow', -, -, hrequest, -, heffects'⟩ := hbelow.step hstep
      exact h.stageOnly rfl hrequest rfl rfl rfl (.settled o hphase hbelow' hcallouts (hgiven.append _) hover
        (heffects'.trans heffects))

/-! ### The host -/

lemma Calling.calloutDone (h : s.Calling r pre req fn ls) {id : ℕ} {result : HttpCalloutResult}
    {headers : HeaderSlice} {body : List UnsafeEnvoyBuffer}
    (hstep : s.step (.calloutDone id result headers body) = some s') :
    s'.Calling r pre req fn (ls ++ [.calloutDone id result headers body]) := by
  obtain ⟨-, hstep⟩ := Option.ite_none_right_eq_some.mp hstep
  rw [State.calloutDone] at hstep
  split_ifs at hstep with hid
  · obtain rfl := Option.some.inj hstep
    cases h.stage with
    | before _ _ hnone | handling _ _ _ _ _ _ hnone | failing _ _ _ _ hnone
    | continuing _ _ _ _ _ _ _ _ _ _ _ hnone | settled _ _ _ hnone => simp [hnone] at hid
    | waiting id' hphase hbelow hcallouts hfn halike heffects hseq =>
        have hnone : s.callouts.erase id = [] := by
          rw [hcallouts, List.mem_singleton] at hid
          rw [hcallouts, hid, List.erase_cons_head]
        have hdropped (hover : s.streamDone = true ∨ s.hasWriter = false) :
            ({ s with callouts := s.callouts.erase id }.emit [.completed .callout]).Calling r pre req fn
              (ls ++ [Label.calloutDone id result headers body]) :=
          h.stageOnly rfl rfl rfl rfl rfl (.settled .pending hphase hbelow hnone trivial (fun _ => hover)
            ((effects_silent rfl).trans heffects))
        rw [onHttpCalloutDone]
        split_ifs with hdone hwriter
        · exact hdropped (.inl hdone)
        · have hgone : (!s.hasWriter) = true := hwriter
          exact hdropped (.inr (by simpa using hgone))
        · have hthere : ¬ (!s.hasWriter) = true := hwriter
          have hfn' : ({ s with callouts := s.callouts.erase id }.emit
              [.completed .callout]).writer.calloutFn = some fn.continuation := hfn
          rw [hfn']
          refine h.stageOnly rfl rfl rfl rfl rfl (.continuing result headers body []
            (fn result headers body) s.stack rfl hphase rfl (hbelow.of_started rfl)
            (by simpa using hthere : s.hasWriter = true) hnone
            ⟨id, List.mem_append_right _ (List.mem_singleton_self _)⟩ ?_ ?_ ?_)
          · rw [List.append_nil]
            exact halike.trans (s.writer.alike_calloutFn none)
          · rw [List.append_nil]
            exact (effects_silent rfl).trans heffects
          · rw [List.append_nil]
            exact hseq
  · obtain ⟨p, -, rfl⟩ := Option.map_eq_some_iff.mp hstep
    exact h.aside aside_doAnswered

lemma Calling.step (h : s.Calling r pre req fn ls) {l : Label} (hstep : s.step l = some s') :
    s'.Calling r pre req fn (ls ++ [l]) := by
  have hdef := h.filterDef
  cases l with
  | worker c => exact h.worker hstep
  | goroutine c => simp [State.step, h.goroutine] at hstep
  | task i c => simp [State.step, runTask, h.tasks] at hstep
  | calloutDone id result headers body => exact h.calloutDone hstep
  | requestHeaders eos =>
      cases step_moves hstep with
      | headersDeferred _ _ _ hbody => simp [hdef] at hbody
      | headersHandled _ hacc hphase hbody =>
          cases h.stage with
          | before _ hstack hcallouts heffects hseq =>
              refine h.stageOnly rfl rfl rfl rfl rfl
                (.handling [] pre rfl ?_ ?_ rfl hcallouts rfl ?_ ?_ hseq)
              · cases eos <;> simp
              · rw [hstack, hdef]
              · rw [← h.request]
                rfl
              · exact (effects_silent rfl).trans heffects
          | handling _ _ _ hne | failing _ _ hne | waiting _ hne | continuing _ _ _ _ _ _ _ hne
          | settled _ hne => exact absurd hphase hne
  | _ =>
      exact h.aside (aside_of_host (by rw [hdef]) (by rw [hdef]) h.streams rfl hstep)

/-! ### Runs -/

lemma calling_new (r : ℕ) (pre : List UserCall) (req : HTTPCalloutRequest) (fn : CalloutCalls) :
    (State.new r { handler := calloutHandler pre req fn }).Calling r pre req fn [] where
  filterDef := rfl
  request := rfl
  goroutine := rfl
  tasks := rfl
  streams := rfl
  stage := .before rfl rfl rfl rfl rfl

lemma calling_run (hrun : run step (State.new r { handler := calloutHandler pre req fn }) ls = some s) :
    s.Calling r pre req fn ls :=
  run_invariant_labels (fun _ _ _ _ h hs => h.step hs) (calling_new r pre req fn) hrun

/-- **`HTTPCallout` is direct style.**  In every run the effects of the request are a beginning of those of
the handler's calls and what follows for the outcome of the callout, which the host has told; they are all
there when no code of the filter is running.  The outcome is open only while the callout is in flight, or
for ever if the answer has come after the stream. -/
theorem callout_direct
    (hrun : run step (State.new r { handler := calloutHandler pre req fn }) ls = some s) :
    ∃ o : CalloutOutcome, o.Given ls ∧ effects s.trace <+: o.view r pre fn ∧
      (s.phase ≠ .awaitingHeaders → s.stack = [] → effects s.trace = o.view r pre fn ∧
        (s.callouts = [] → s.streamDone = false → s.hasWriter = true → o ≠ .pending)) := by
  cases (calling_run hrun).stage with
  | before hphase _ _ heffects =>
      exact ⟨.pending, trivial, heffects ▸ List.nil_prefix, fun hne => absurd hphase hne⟩
  | handling done rest hpre _ hstack _ _ _ _ heffects =>
      refine ⟨.pending, trivial, ?_, fun _ hnil => by simp [hstack] at hnil⟩
      rw [heffects, CalloutOutcome.view, hpre, Writer.calls_append, effectsOf_append]
      exact List.prefix_append _ _
  | failing _ _ _ hstack _ _ _ hgiven heffects =>
      refine ⟨.refused, hgiven, ?_, fun _ hnil => by simp [hstack] at hnil⟩
      rw [heffects, CalloutOutcome.view, CalloutOutcome.view, effectsOf_append]
      exact List.prefix_append _ _
  | waiting id _ _ hcallouts _ _ heffects =>
      exact ⟨.pending, trivial, heffects ▸ List.prefix_rfl,
        fun _ _ => ⟨heffects, fun hnone => by simp [hcallouts] at hnone⟩⟩
  | continuing result headers body done rest _ hdone _ hstack _ _ _ hgiven _ heffects =>
      refine ⟨.answered result headers body, hgiven, ?_, fun _ hnil => by simp [hstack] at hnil⟩
      rw [heffects, CalloutOutcome.view, hdone, ← List.append_assoc, Writer.calls_append (pre ++ done) rest,
        effectsOf_append, effectsOf_append, List.append_assoc]
      exact List.prefix_append _ _
  | settled o _ _ _ hgiven hover heffects =>
      refine ⟨o, hgiven, heffects ▸ List.prefix_rfl, fun _ _ => ⟨heffects, fun _ hdone hwriter ho => ?_⟩⟩
      simpa [hdone, hwriter] using hover ho

/-- A continuation that sets a header if it is told so. -/
def askedCalls : CalloutCalls := fun result _ _ =>
  if result = .success then [.setRequestHeader (ascii "a") []] else [.send 502 []]

/-- It is told so before `HttpCallout` returns. -/
theorem callout_direct_inline : ∃ s,
    run step (State.new 0 { handler := calloutHandler [] ⟨ascii "auth", [], [], 250⟩ askedCalls })
      [.requestHeaders true, .worker { id := 7 }, .calloutDone 7 .success [] [], .worker { }, .worker { },
        .worker { }, .worker { }] = some s ∧
      ∃ o : CalloutOutcome, o ≠ .pending ∧ effects s.trace = o.view 0 [] askedCalls := by
  obtain ⟨s, hrun⟩ : ∃ s,
      run step (State.new 0 { handler := calloutHandler [] ⟨ascii "auth", [], [], 250⟩ askedCalls })
        [.requestHeaders true, .worker { id := 7 }, .calloutDone 7 .success [] [], .worker { }, .worker { },
          .worker { }, .worker { }] = some s := ⟨_, rfl⟩
  have hidle : s.phase ≠ .awaitingHeaders ∧ s.stack = [] := by
    cases hrun
    exact ⟨by decide, rfl⟩
  have hlive : s.callouts = [] ∧ s.streamDone = false ∧ s.hasWriter = true := by
    cases hrun
    exact ⟨rfl, rfl, rfl⟩
  obtain ⟨o, -, -, hall⟩ := callout_direct hrun
  obtain ⟨heffects, ho⟩ := hall hidle.1 hidle.2
  exact ⟨s, hrun, o, ho hlive.1 hlive.2.1 hlive.2.2, heffects⟩

end State

end Luwes.Sahl
