import Luwes.Sahl.Straight
import Luwes.Sahl.WriterOps
import Mathlib.Data.List.Perm.Basic

/-!
# Direct style

A handler that has to wait calls `Go`.  The function it hands over runs on a goroutine of its own; every
`Do` in it puts a callout on the scheduler and blocks until the worker thread has sent the answer over a
channel.  What the function asks of the Writer waits for the flush that is scheduled when it returns.

To its author the function is straight-line code that runs alone: `Prog.Goes` is that reading of it, from
the answers that its calls of `Do` get to the calls that it makes.  `go_direct` says that the reading is
right.  However the goroutine, the worker thread, the scheduler and the host take turns, the effects of the
request are those of the calls on one way through the code, with answers that the host or the context has
given, in the order of the code.  Of a response only the result is the host's word: its bytes are what is in
the host's memory when the goroutine wakes up.
-/

namespace Luwes.Sahl

open LabelledRun

/-! ## The code, running alone -/

/-- With the answers `as` for its calls of `Do`, the body of a goroutine has made the calls `cs` and is left
with `q`.  A body that starts another operation gets its panic back, because `Go` has been called. -/
inductive Prog.Goes (p : Prog) : List DoResult → List UserCall → Prog → Prop
  | start : p.Goes [] [] p
  | observes {as : List DoResult} {cs : List UserCall} {k : ℕ → Prog} (h : p.Goes as cs (.observe k))
      (n : ℕ) : p.Goes as cs (k n)
  | calls {as : List DoResult} {cs : List UserCall} {c : UserCall} {k : Prog}
      (h : p.Goes as cs (.call c k)) : p.Goes as (cs ++ [c]) k
  | answered {as : List DoResult} {cs : List UserCall} {req : HTTPCalloutRequest}
      {k : Outcome DoResult → Prog} (h : p.Goes as cs (.doCallout req k)) (a : DoResult) :
      p.Goes (as ++ [a]) cs (k (.ok a))
  | goRefused {as : List DoResult} {cs : List UserCall} {fn : Prog} {k : Outcome Unit → Prog}
      (h : p.Goes as cs (.go fn k)) : p.Goes as cs (k .panicked)
  | calloutRefused {as : List DoResult} {cs : List UserCall} {req : HTTPCalloutRequest}
      {fn : HTTPCalloutFunc} {k : Outcome HttpCalloutInitResult → Prog}
      (h : p.Goes as cs (.httpCallout req fn k)) : p.Goes as cs (k .panicked)
  | streamRefused {as : List DoResult} {cs : List UserCall} {req : HTTPStreamRequest}
      {fn : HTTPStreamEventFunc} {k : Outcome HttpCalloutInitResult → Prog}
      (h : p.Goes as cs (.httpStream req fn k)) : p.Goes as cs (k .panicked)

/-- A handler that makes some calls and leaves the rest to a goroutine. -/
def goHandler (pre : List UserCall) (body : Prog) : HandlerFunc :=
  (straight pre).seq (.go body fun _ => .ret)

/-! ## Effects -/

/-- What a call on the handle does to the request; to start a callout or a stream does nothing to it. -/
def HandleCall.effect : HandleCall → Option HostEvent
  | .httpCallout _ | .startHttpStream _ => none
  | c => some c.event

/-- The effects of calls on the handle. -/
def effectsOf (cs : List HandleCall) : List HostEvent := cs.filterMap HandleCall.effect

/-- The effects of a run. -/
def effects (tr : List Obs) : List HostEvent := effectsOf (callsOf tr)

@[simp] lemma effectsOf_append (xs ys : List HandleCall) :
    effectsOf (xs ++ ys) = effectsOf xs ++ effectsOf ys := List.filterMap_append

@[simp] lemma effects_append (xs ys : List Obs) : effects (xs ++ ys) = effects xs ++ effects ys := by
  rw [effects, callsOf_append, effectsOf_append]
  rfl

@[simp] lemma effects_calls (cs : List HandleCall) : effects (cs.map .call) = effectsOf cs := by
  rw [effects, callsOf_calls]

lemma effects_silent {xs ys : List Obs} (h : effects ys = []) : effects (xs ++ ys) = effects xs := by
  rw [effects_append, h, List.append_nil]

lemma Ledger.effects_userCall (g : Ledger) (who : Actor) (c : UserCall) :
    effects (g.userCall who c).trace =
      effects g.trace ++ effectsOf (g.writer.userCall ⟨g.request, g.seq⟩ c).2 := by
  change effects (g.trace ++ ([.user who ⟨g.request, g.seq⟩ c] ++
    (g.writer.userCall ⟨g.request, g.seq⟩ c).2.map .call)) = _
  rw [effects_append, effects_append, effects_calls]
  rfl

lemma Ledger.effects_flush (g : Ledger) (continueReq : Bool) :
    effects (g.flush continueReq).trace = effects g.trace ++ effectsOf (g.writer.flush continueReq) := by
  change effects (g.trace ++ ([.flushed continueReq] ++ (g.writer.flush continueReq).map .call)) = _
  rw [effects_append, effects_append, effects_calls]
  rfl

/-- The Writer of a request after the handler's calls, `Go` and the calls of the goroutine, and what they
have called on the handle. -/
def Writer.went (r : ℕ) (pre cs : List UserCall) : Writer × List HandleCall :=
  let x := (start r).calls r 0 pre
  let y := (x.1.startGo r).calls r pre.length cs
  (y.1, x.2 ++ y.2)

/-- The effects of a request whose goroutine has returned and whose flush has run. -/
def goView (r : ℕ) (pre cs : List UserCall) : List HostEvent :=
  let x := Writer.went r pre cs
  effectsOf (x.2 ++ x.1.flush true)

namespace Writer

variable {w w' : Writer} {r n : ℕ}

lemma calls_goStarted (cs : List UserCall) : (w.calls r n cs).1.goStarted = w.goStarted := by
  induction cs generalizing w n with
  | nil => rfl
  | cons c cs ih => exact ih.trans (userCall_flags w _ c).1

lemma went_goStarted (pre cs : List UserCall) : (went r pre cs).1.goStarted = true :=
  (calls_goStarted cs).trans rfl

lemma went_nil (pre : List UserCall) :
    went r pre [] = (((start r).calls r 0 pre).1.startGo r, ((start r).calls r 0 pre).2) := by
  rw [went, calls, List.append_nil]

lemma went_concat (pre cs : List UserCall) (c : UserCall) :
    went r pre (cs ++ [c]) =
      (((went r pre cs).1.userCall ⟨r, pre.length + cs.length⟩ c).1,
        (went r pre cs).2 ++ ((went r pre cs).1.userCall ⟨r, pre.length + cs.length⟩ c).2) := by
  simp only [went, calls_concat, List.append_assoc]

lemma Agrees.startGo (h : w.Agrees w') (r : ℕ) : (w.startGo r).Agrees (w'.startGo r) := by
  rw [Agrees, h]
  rfl

lemma Agrees.goStarted (h : w.Agrees w') : w'.goStarted = w.goStarted := by rw [h]

end Writer

/-! ## Answers -/

/-- The host has answered so, or has not accepted the callout: what may be on the channel of a `Do`. -/
def OnChannel (ls : List State.Label) : DoResult → Prop
  | .resp r => ∃ id, .calloutDone id r.result r.headers r.body ∈ ls
  | .initErr init => init ≠ .success ∧ ∃ i c, .task i c ∈ ls ∧ c.init = init
  | .cancelled => False

/-- The goroutine has been told so: what was sent, with what the buffers of a response held when it woke up,
or that the context is cancelled. -/
def Given (ls : List State.Label) (a : DoResult) : Prop :=
  ∃ c, .goroutine c ∈ ls ∧
    (c.cancel = true ∧ a = .cancelled ∨ ∃ sent, OnChannel ls sent ∧ a = c.shown sent)

lemma OnChannel.append {ls : List State.Label} {a : DoResult} (h : OnChannel ls a) (l : State.Label) :
    OnChannel (ls ++ [l]) a := by
  cases a with
  | resp r =>
      obtain ⟨id, hid⟩ := h
      exact ⟨id, List.mem_append_left _ hid⟩
  | initErr init =>
      obtain ⟨hinit, i, c, hc, heq⟩ := h
      exact ⟨hinit, i, c, List.mem_append_left _ hc, heq⟩
  | cancelled => exact h.elim

lemma Given.append {ls : List State.Label} {a : DoResult} (h : Given ls a) (l : State.Label) :
    Given (ls ++ [l]) a := by
  obtain ⟨c, hc, ha⟩ := h
  exact ⟨c, List.mem_append_left _ hc, ha.imp_right fun ⟨sent, hsent, heq⟩ => ⟨sent, hsent.append l, heq⟩⟩

/-! ## A run -/

namespace State

/-- The goroutine has got the answers `as`, has made the calls `cs` and is left with `p`.  The handler has
nothing left to do. -/
structure Went (r : ℕ) (pre : List UserCall) (body : Prog) (ls : List Label) (as : List DoResult)
    (cs : List UserCall) (p : Prog) (s : State) : Prop where
  goes : body.Goes as cs p
  given : ∀ a ∈ as, Given ls a
  phase : s.phase ≠ .awaitingHeaders
  stack : s.stack = [] ∨ s.stack = [⟨.prog .ret, .onRequestHeaders⟩]
  agrees : (Writer.went r pre cs).1.Agrees s.writer
  effects : effects s.trace = effectsOf (Writer.went r pre cs).2
  seq : s.seq = pre.length + cs.length

/-- Where the request is. -/
inductive GoStage (r : ℕ) (pre : List UserCall) (body : Prog) (ls : List Label) (s : State) : Prop
  /-- Before `OnRequestHeaders`. -/
  | before (hphase : s.phase = .awaitingHeaders) (hstack : s.stack = []) (hgo : s.goroutine = none)
      (htasks : s.tasks = []) (heffects : effects s.trace = []) (hseq : s.seq = 0)
  /-- The handler has made the calls `done`. -/
  | handling (done rest : List UserCall) (hpre : pre = done ++ rest) (hphase : s.phase ≠ .awaitingHeaders)
      (hstack : s.stack = [⟨.prog (goHandler rest body), .onRequestHeaders⟩]) (hwriter : s.hasWriter = true)
      (hgo : s.goroutine = none) (htasks : s.tasks = [])
      (hagrees : ((Writer.start r).calls r 0 done).1.Agrees s.writer)
      (heffects : effects s.trace = effectsOf ((Writer.start r).calls r 0 done).2)
      (hseq : s.seq = done.length)
  /-- The goroutine is running, or blocked in `Do`. -/
  | working (as : List DoResult) (cs : List UserCall) (p : Prog) (code : Code)
      (hwent : s.Went r pre body ls as cs p) (hgo : s.goroutine = some code)
      (hcode : code = .prog p ∨ ∃ ch req k, p = .doCallout req k ∧ code = .inDo ch k)
      (htasks : s.tasks.count .flush = 0)
  /-- It has returned, and its flush is scheduled. -/
  | returned (as : List DoResult) (cs : List UserCall) (hwent : s.Went r pre body ls as cs .ret)
      (hgo : s.goroutine = none) (htasks : s.tasks.count .flush = 1)
  /-- The flush has run. -/
  | flushed (as : List DoResult) (cs : List UserCall) (hgoes : body.Goes as cs .ret)
      (hgiven : ∀ a ∈ as, Given ls a) (hphase : s.phase ≠ .awaitingHeaders) (hstack : s.stack = [])
      (hgo : s.goroutine = none) (htasks : s.tasks.count .flush = 0)
      (heffects : effects s.trace = goView r pre cs)

/-- A request with such a handler and no response observer: all else that runs for it is the callouts. -/
structure Going (r : ℕ) (pre : List UserCall) (body : Prog) (ls : List Label) (s : State) : Prop where
  filterDef : s.filterDef = { handler := goHandler pre body }
  request : s.request = r
  callouts : s.callouts = []
  streams : s.streams = []
  chans : ∀ (ch : ℕ) (a : DoResult), s.chans[ch]? = some (some a) → OnChannel ls a
  stage : s.GoStage r pre body ls

/-- Nothing happens to the handler, the goroutine and the effects; a channel may get an answer. -/
structure Aside (ls : List Label) (s s' : State) : Prop where
  filterDef : s'.filterDef = s.filterDef
  request : s'.request = s.request
  goroutine : s'.goroutine = s.goroutine
  tasks : s'.tasks.count .flush = s.tasks.count .flush
  noTasks : s.tasks = [] → s'.tasks = []
  callouts : s'.callouts = s.callouts
  streams : s'.streams = s.streams
  phase : s'.phase = .awaitingHeaders ↔ s.phase = .awaitingHeaders
  stack : s'.stack = s.stack
  seq : s'.seq = s.seq
  writer : s.writer.Agrees s'.writer
  hasWriter : s.stack ≠ [] → s'.hasWriter = s.hasWriter
  dropped : s.streamDone = true ∨ s.hasWriter = false → s'.streamDone = true ∨ s'.hasWriter = false
  effects : effects s'.trace = effects s.trace
  chans : ∀ (ch : ℕ) (a : DoResult), s'.chans[ch]? = some (some a) →
    s.chans[ch]? = some (some a) ∨ OnChannel ls a

variable {r : ℕ} {pre : List UserCall} {body : Prog} {ls : List Label} {s s' : State}
  {as : List DoResult} {cs : List UserCall} {p : Prog}

/-- An event of the host that runs no code of a filter without an observer. -/
def Label.isAside : Label → Bool
  | .requestBody _ | .requestTrailers | .responseHeaders _ | .responseBody _ _ | .localReply _
  | .streamComplete | .destroy | .streamEvent _ => true
  | _ => false

/-- It leaves the handler and what it has started alone. -/
lemma aside_of_host (hfn : s.filterDef.responseFn = none) (hbody : s.filterDef.bodyAware = false)
    (hstreams : s.streams = []) {l : Label} (hl : l.isAside = true) (hstep : s.step l = some s') :
    s.Aside ls s' := by
  have hidle (hacc : s.accepting = true) (hne : s.stack ≠ []) : s'.hasWriter = s.hasWriter :=
    absurd (accepting_stack hacc) hne
  cases step_moves hstep with
  | bodyHandled _ _ haware | bodyBuffered _ _ haware => simp [hbody] at haware
  | bodyPassed endStream bodyDone hacc hphase =>
      refine ⟨rfl, rfl, rfl, rfl, id, rfl, rfl, ?_, rfl, rfl, rfl, hidle hacc, id, effects_silent rfl,
        fun _ _ ha => .inl ha⟩
      cases endStream <;> simp [hphase]
  | trailersPassed hacc hphase =>
      exact ⟨rfl, rfl, rfl, rfl, id, rfl, rfl, by simp [hphase], rfl, rfl, rfl, hidle hacc, id,
        effects_silent rfl, fun _ _ ha => .inl ha⟩
  | responseHeadersPassed _ hacc | responseBodyPassed _ _ _ hacc =>
      exact ⟨rfl, rfl, rfl, rfl, id, rfl, rfl, .rfl, rfl, rfl, rfl, hidle hacc, id, effects_silent rfl,
        fun _ _ ha => .inl ha⟩
  | responseHeadersObserved _ _ _ hsome | responseBodyObserved _ _ _ _ hsome => simp [hfn] at hsome
  | localReply _ text =>
      exact ⟨rfl, rfl, rfl, rfl, id, rfl, rfl, .rfl, rfl, rfl, rfl, fun _ => rfl, id, effects_silent rfl,
        fun _ _ ha => .inl ha⟩
  | streamCompleteFlushed _ _ hsome => simp [hfn] at hsome
  | streamCompletePassed _ hacc =>
      exact ⟨rfl, rfl, rfl, rfl, id, rfl, rfl, .rfl, rfl, rfl, rfl, hidle hacc, fun _ => .inl rfl,
        effects_silent rfl, fun _ _ ha => .inl ha⟩
  | destroyed hempty =>
      exact ⟨rfl, rfl, rfl, rfl, id, rfl, rfl, .rfl, rfl, rfl, rfl,
        fun hne => absurd (List.isEmpty_iff.mp hempty) hne, fun _ => .inr rfl, effects_silent rfl,
        fun _ _ ha => .inl ha⟩
  | streamEventDropped _ _ hid | streamEventRun _ _ _ hid | streamEndDropped _ _ hid
  | streamEndFlushed _ _ hid | streamEndRun _ _ _ _ hid => simp [hstreams] at hid
  | _ => cases hl

/-- So does the answer to a `Do`, which waits in its channel. -/
lemma aside_doAnswered {id id' ch : ℕ} {result : HttpCalloutResult} {headers : HeaderSlice}
    {chunks : List UnsafeEnvoyBuffer} :
    s.Aside (ls ++ [.calloutDone id result headers chunks])
      (s.deliverDo id' ch ⟨result, headers, chunks⟩) := by
  refine ⟨rfl, rfl, rfl, rfl, fun hnil => hnil, rfl, rfl, .rfl, rfl, rfl, rfl, fun _ => rfl,
    fun hover => hover, rfl, fun ch' a ha => ?_⟩
  have hchan : (s.chans.set ch (some (.resp ⟨result, headers, chunks⟩)))[ch']? = some (some a) := ha
  rw [List.getElem?_set] at hchan
  split_ifs at hchan with hch hlt
  · obtain rfl := Option.some.inj (Option.some.inj hchan)
    exact .inr ⟨id, List.mem_append_right _ (List.mem_singleton_self _)⟩
  · exact .inl hchan

lemma Went.aside (h : s.Went r pre body ls as cs p) {l : Label} (hs : s.Aside (ls ++ [l]) s') :
    s'.Went r pre body (ls ++ [l]) as cs p where
  goes := h.goes
  given a ha := (h.given a ha).append l
  phase := mt hs.phase.mp h.phase
  stack := hs.stack.symm ▸ h.stack
  agrees := h.agrees.trans hs.writer
  effects := hs.effects.trans h.effects
  seq := hs.seq.trans h.seq

lemma GoStage.aside (h : s.GoStage r pre body ls) {l : Label} (hs : s.Aside (ls ++ [l]) s') :
    s'.GoStage r pre body (ls ++ [l]) := by
  cases h with
  | before hphase hstack hgo htasks heffects hseq =>
      exact .before (hs.phase.mpr hphase) (hs.stack.trans hstack) (hs.goroutine.trans hgo)
        (hs.noTasks htasks) (hs.effects.trans heffects) (hs.seq.trans hseq)
  | handling done rest hpre hphase hstack hwriter hgo htasks hagrees heffects hseq =>
      exact .handling done rest hpre (mt hs.phase.mp hphase) (hs.stack.trans hstack)
        ((hs.hasWriter (by simp [hstack])).trans hwriter) (hs.goroutine.trans hgo) (hs.noTasks htasks)
        (hagrees.trans hs.writer) (hs.effects.trans heffects) (hs.seq.trans hseq)
  | working as cs p code hwent hgo hcode htasks =>
      exact .working as cs p code (hwent.aside hs) (hs.goroutine.trans hgo) hcode (hs.tasks.trans htasks)
  | returned as cs hwent hgo htasks =>
      exact .returned as cs (hwent.aside hs) (hs.goroutine.trans hgo) (hs.tasks.trans htasks)
  | flushed as cs hgoes hgiven hphase hstack hgo htasks heffects =>
      exact .flushed as cs hgoes (fun a ha => (hgiven a ha).append l) (mt hs.phase.mp hphase)
        (hs.stack.trans hstack) (hs.goroutine.trans hgo) (hs.tasks.trans htasks) (hs.effects.trans heffects)

lemma Going.aside (h : s.Going r pre body ls) {l : Label} (hs : s.Aside (ls ++ [l]) s') :
    s'.Going r pre body (ls ++ [l]) where
  filterDef := hs.filterDef.trans h.filterDef
  request := hs.request.trans h.request
  callouts := hs.callouts.trans h.callouts
  streams := hs.streams.trans h.streams
  chans ch a ha := (hs.chans ch a ha).elim (fun hold => (h.chans ch a hold).append l) id
  stage := h.stage.aside hs

lemma Going.stageOnly (h : s.Going r pre body ls) {l : Label} (hdef : s'.filterDef = s.filterDef)
    (hrequest : s'.request = s.request) (hcallouts : s'.callouts = s.callouts)
    (hstreams : s'.streams = s.streams) (hchans : s'.chans = s.chans)
    (hstage : s'.GoStage r pre body (ls ++ [l])) : s'.Going r pre body (ls ++ [l]) where
  filterDef := hdef.trans h.filterDef
  request := hrequest.trans h.request
  callouts := hcallouts.trans h.callouts
  streams := hstreams.trans h.streams
  chans ch a ha := (h.chans ch a (hchans ▸ ha)).append l
  stage := hstage

/-! ### The handler -/

lemma Going.handlerCalls (h : s.Going r pre body ls) {done rest : List UserCall} {call : UserCall}
    (hpre : pre = done ++ call :: rest) (hphase : s.phase ≠ .awaitingHeaders) (hwriter : s.hasWriter = true)
    (hgo : s.goroutine = none) (htasks : s.tasks = [])
    (hagrees : ((Writer.start r).calls r 0 done).1.Agrees s.writer)
    (heffects : effects s.trace = effectsOf ((Writer.start r).calls r 0 done).2)
    (hseq : s.seq = done.length) (l : Label) :
    ({ s.userCall (.worker .onRequestHeaders) call with
        stack := [⟨.prog (goHandler rest body), .onRequestHeaders⟩] } : State).Going r pre body
      (ls ++ [l]) := by
  obtain ⟨rs, heq⟩ := userCall_eq s (.worker .onRequestHeaders) call
  obtain ⟨hcalls, hagrees'⟩ := hagrees.userCall ⟨r, done.length⟩ call
  have hid : (⟨s.request, s.seq⟩ : CallId) = ⟨r, done.length⟩ := by rw [h.request, hseq]
  have hconcat := Writer.calls_concat (w := Writer.start r) (r := r) (n := 0) done call
  rw [Nat.zero_add] at hconcat
  rw [heq]
  refine h.stageOnly rfl rfl rfl rfl rfl
    (.handling (done ++ [call]) rest (by simp [hpre]) hphase rfl hwriter hgo htasks ?_ ?_ ?_)
  · rw [hconcat]
    change Writer.Agrees _ (s.writer.userCall ⟨s.request, s.seq⟩ call).1
    rw [hid]
    exact hagrees'
  · change effects (s.toLedger.userCall _ call).trace = _
    rw [Ledger.effects_userCall, hid, hcalls, hconcat, heffects, effectsOf_append]
  · change s.seq + 1 = _
    rw [hseq, List.length_append, List.length_singleton]

lemma Going.worker (h : s.Going r pre body ls) {c : Choice} (hstep : s.step (.worker c) = some s') :
    s'.Going r pre body (ls ++ [.worker c]) := by
  have hreturns (hgoStarted : s.writer.goStarted = true)
      (hstack : s.stack = [⟨.prog .ret, .onRequestHeaders⟩]) :
      s' = { s with stack := [], toLedger := s.toLedger.emit [.returned (.requestHeaders .statusStop)] } := by
    rw [State.step, hstack] at hstep
    obtain rfl := Option.some.inj hstep
    rw [finish, onRequestHeadersTail, if_pos (by simp [Writer.asyncStarted, hgoStarted])]
    rfl
  have hwentStack {as cs p} (hwent : s.Went r pre body ls as cs p) :
      s.stack = [⟨.prog .ret, .onRequestHeaders⟩] :=
    hwent.stack.resolve_left fun hnil => by simp [State.step, hnil] at hstep
  have hwent' {as cs p} (hwent : s.Went r pre body ls as cs p)
      (heq : s' = { s with
        stack := [], toLedger := s.toLedger.emit [.returned (.requestHeaders .statusStop)] }) :
      s'.Went r pre body (ls ++ [.worker c]) as cs p := by
    subst heq
    refine ⟨hwent.goes, fun a ha => (hwent.given a ha).append _, hwent.phase, .inl rfl, hwent.agrees, ?_,
      hwent.seq⟩
    exact (effects_silent rfl).trans hwent.effects
  cases h.stage with
  | before _ hstack | flushed _ _ _ _ _ hstack => simp [State.step, hstack] at hstep
  | working as cs p code hwent hgo hcode htasks =>
      have heq := hreturns (hwent.agrees.goStarted.trans (Writer.went_goStarted pre cs)) (hwentStack hwent)
      have hnext := hwent' hwent heq
      subst heq
      exact h.stageOnly rfl rfl rfl rfl rfl (.working as cs p code hnext hgo hcode htasks)
  | returned as cs hwent hgo htasks =>
      have heq := hreturns (hwent.agrees.goStarted.trans (Writer.went_goStarted pre cs)) (hwentStack hwent)
      have hnext := hwent' hwent heq
      subst heq
      exact h.stageOnly rfl rfl rfl rfl rfl (.returned as cs hnext hgo htasks)
  | handling done rest hpre hphase hstack hwriter hgo htasks hagrees heffects hseq =>
      rw [State.step, hstack] at hstep
      cases rest with
      | nil =>
          have hfree : s.writer.goStarted = false :=
            hagrees.goStarted.trans ((Writer.calls_goStarted done).trans rfl)
          simp only [workerStep, goHandler, straight, Prog.seq, nilWriter, hwriter, op, Writer.goPanics,
            hfree, Bool.not_true, Bool.false_eq_true, if_false, Option.map_some] at hstep
          obtain rfl := Option.some.inj hstep
          rw [List.append_nil] at hpre
          subst hpre
          refine h.stageOnly rfl rfl rfl rfl rfl (.working [] [] body _ ⟨.start, by simp, hphase, .inr rfl,
            ?_, ?_, ?_⟩ rfl (.inl rfl) ?_)
          · rw [Writer.went_nil]
            change Writer.Agrees _ (s.writer.startGo s.request)
            rw [h.request]
            exact hagrees.startGo r
          · rw [Writer.went_nil]
            exact (effects_silent rfl).trans heffects
          · exact hseq
          · rw [startGo]
            simp [htasks, State.emit, State.setWriter]
      | cons call rest =>
          have hnil : s.nilWriter (.call call (goHandler rest body)) = false := by
            cases call <;> simp [nilWriter, hwriter]
          have hcode : goHandler (call :: rest) body = .call call (goHandler rest body) := rfl
          simp only [workerStep, hcode, hnil, op, Option.map_some] at hstep
          obtain rfl := Option.some.inj hstep
          exact h.handlerCalls hpre hphase hwriter hgo htasks hagrees heffects hseq _

/-! ### The goroutine -/

/-- The body goes on without a call: it reads, is refused, or is told an answer. -/
lemma Went.goesOn (h : s.Went r pre body ls as cs p) {as' : List DoResult} {q : Prog}
    (hgoes : body.Goes as' cs q) {l : Label} (hgiven : ∀ a ∈ as', Given (ls ++ [l]) a) :
    s.Went r pre body (ls ++ [l]) as' cs q :=
  { h with goes := hgoes, given := hgiven }

lemma Went.bodyCalls (h : s.Went r pre body ls as cs (.call call p)) (hrequest : s.request = r)
    {rs : ResponseState} {code : Code} (l : Label) :
    ({ s with
        toLedger := s.toLedger.userCall .goroutine call
        respState := rs
        goroutine := some code } : State).Went r pre body (ls ++ [l]) as (cs ++ [call]) p := by
  have hid : (⟨s.request, s.seq⟩ : CallId) = ⟨r, pre.length + cs.length⟩ := by rw [hrequest, h.seq]
  obtain ⟨hcalls, hagrees⟩ := h.agrees.userCall ⟨r, pre.length + cs.length⟩ call
  refine ⟨.calls h.goes, fun a ha => (h.given a ha).append l, h.phase, h.stack, ?_, ?_, ?_⟩
  · rw [Writer.went_concat]
    change Writer.Agrees _ (s.writer.userCall ⟨s.request, s.seq⟩ call).1
    rw [hid]
    exact hagrees
  · change Sahl.effects (s.toLedger.userCall _ call).trace = _
    rw [Ledger.effects_userCall, hid, hcalls, Writer.went_concat, h.effects, effectsOf_append]
  · change s.seq + 1 = _
    rw [h.seq, List.length_append, List.length_singleton, Nat.add_assoc]

/-- An answer that wakes a `Do` has been given. -/
lemma Going.wake_given (h : s.Going r pre body ls) {c : Choice} {ch : ℕ} {a : DoResult}
    (hwake : s.wake c ch = some a) : Given (ls ++ [.goroutine c]) a := by
  refine ⟨c, List.mem_append_right _ (List.mem_singleton_self _), ?_⟩
  rw [State.wake] at hwake
  split_ifs at hwake with hcancel
  · exact .inl ⟨hcancel, (Option.some.inj hwake).symm⟩
  · obtain ⟨sent, hsent, rfl⟩ := Option.map_eq_some_iff.mp hwake
    exact .inr ⟨sent, (h.chans ch sent (Option.join_eq_some_iff.mp hsent)).append _, rfl⟩

lemma Going.goroutine (h : s.Going r pre body ls) {c : Choice}
    (hstep : s.step (.goroutine c) = some s') : s'.Going r pre body (ls ++ [.goroutine c]) := by
  cases h.stage with
  | before _ _ hgo | handling _ _ _ _ _ _ hgo | returned _ _ _ hgo | flushed _ _ _ _ _ _ hgo =>
      simp [State.step, hgo] at hstep
  | working as cs p code hwent hgo hcode htasks =>
      have hstarted : s.writer.goStarted = true :=
        hwent.agrees.goStarted.trans (Writer.went_goStarted pre cs)
      have hgiven (a : DoResult) (ha : a ∈ as) : Given (ls ++ [.goroutine c]) a := (hwent.given a ha).append _
      rw [State.step, hgo] at hstep
      rcases hcode with rfl | ⟨ch, req, k, rfl, rfl⟩
      · cases p with
        | panic => simp [goroutineStep, op] at hstep
        | ret =>
            obtain rfl := Option.some.inj hstep
            refine h.stageOnly rfl rfl rfl rfl rfl (.returned as cs ⟨hwent.goes, hgiven, hwent.phase,
              hwent.stack, hwent.agrees, ?_, hwent.seq⟩ rfl ?_)
            · exact (effects_silent rfl).trans hwent.effects
            · change (s.tasks ++ [Task.flush]).count .flush = 1
              rw [List.count_append, htasks]
              rfl
        | observe k =>
            obtain rfl := Option.some.inj hstep
            exact h.stageOnly rfl rfl rfl rfl rfl
              (.working as cs _ _ { hwent.goesOn (.observes hwent.goes c.answer) hgiven with } rfl (.inl rfl)
                htasks)
        | call call k =>
            obtain rfl := Option.some.inj hstep
            obtain ⟨rs, heq⟩ := userCall_eq s .goroutine call
            rw [heq]
            exact h.stageOnly rfl rfl rfl rfl rfl
              (.working as (cs ++ [call]) k _ (hwent.bodyCalls h.request _) rfl (.inl rfl) htasks)
        | go fn k =>
            simp only [goroutineStep, op, Writer.goPanics, hstarted, if_true, Option.map_some] at hstep
            obtain rfl := Option.some.inj hstep
            exact h.stageOnly rfl rfl rfl rfl rfl
              (.working as cs _ _ { hwent.goesOn (.goRefused hwent.goes) hgiven with } rfl (.inl rfl) htasks)
        | httpCallout req fn k =>
            simp only [goroutineStep, op, Writer.calloutPanics, hstarted, Bool.or_true, if_true,
              Option.map_some] at hstep
            obtain rfl := Option.some.inj hstep
            exact h.stageOnly rfl rfl rfl rfl rfl
              (.working as cs _ _ { hwent.goesOn (.calloutRefused hwent.goes) hgiven with } rfl (.inl rfl)
                htasks)
        | httpStream req fn k =>
            simp only [goroutineStep, op, Writer.streamPanics, hstarted, Bool.or_true, if_true,
              Option.map_some] at hstep
            obtain rfl := Option.some.inj hstep
            exact h.stageOnly rfl rfl rfl rfl rfl
              (.working as cs _ _ { hwent.goesOn (.streamRefused hwent.goes) hgiven with } rfl (.inl rfl)
                htasks)
        | doCallout req k =>
            simp only [goroutineStep, op, hstarted, Bool.not_true, Bool.false_eq_true, if_false,
              Option.map_some] at hstep
            obtain rfl := Option.some.inj hstep
            have hcount : (s.tasks ++ [Task.doCallout s.chans.length req]).count .flush = 0 := by
              rw [List.count_append, htasks]
              rfl
            refine ⟨h.filterDef, h.request, h.callouts, h.streams, fun ch a ha => ?_,
              .working as cs _ _ { hwent.goesOn hwent.goes hgiven with } rfl (.inr ⟨_, req, k, rfl, rfl⟩)
                hcount⟩
            have hchan : (s.chans ++ [none])[ch]? = some (some a) := ha
            rw [List.getElem?_append] at hchan
            split_ifs at hchan with hlt
            · exact (h.chans ch a hchan).append _
            · simp [List.getElem?_singleton] at hchan
      · obtain ⟨a, hwake, rfl⟩ := Option.map_eq_some_iff.mp hstep
        refine h.stageOnly rfl rfl rfl rfl rfl
          (.working (as ++ [a]) cs _ _ { hwent.goesOn (.answered hwent.goes a) ?_ with } rfl (.inl rfl)
            htasks)
        intro b hb
        rcases List.mem_append.mp hb with hb | hb
        · exact hgiven b hb
        · obtain rfl := List.mem_singleton.mp hb
          exact h.wake_given hwake

/-! ### The scheduler and the host -/

/-- A task that is taken off the list is counted no more. -/
lemma count_eraseIdx {tasks : List Task} {i : ℕ} {t : Task} (ht : tasks[i]? = some t) :
    (tasks.eraseIdx i).count .flush + (if t = .flush then 1 else 0) = tasks.count .flush := by
  obtain ⟨hi, rfl⟩ := List.getElem?_eq_some_iff.mp ht
  rw [← (List.getElem_cons_eraseIdx_perm hi).count_eq, List.count_cons]
  simp only [beq_iff_eq]

lemma Going.taskCallout (h : s.Going r pre body ls) {i ch : ℕ} {c : Choice} {req : HTTPCalloutRequest}
    (htask : s.tasks[i]? = some (.doCallout ch req))
    (hstep : ({ s with tasks := s.tasks.eraseIdx i } : State).runDoCallout c ch req = some s') :
    s'.Going r pre body (ls ++ [.task i c]) := by
  have hcount : (s.tasks.eraseIdx i).count .flush = s.tasks.count .flush := count_eraseIdx htask
  have hnone : s.tasks = [] → s.tasks.eraseIdx i = [] := fun hnil => by simp [hnil] at htask
  have heffects : effects (s.trace ++ [.call (.httpCallout req)]) = effects s.trace :=
    effects_silent rfl
  rw [runDoCallout] at hstep
  split_ifs at hstep with hinit hid
  · obtain rfl := Option.some.inj hstep
    exact h.aside ⟨rfl, rfl, rfl, hcount, hnone, rfl, rfl, .rfl, rfl, rfl, rfl, fun _ => rfl, id, heffects,
      fun _ _ ha => .inl ha⟩
  · obtain rfl := Option.some.inj hstep
    refine h.aside ⟨rfl, rfl, rfl, hcount, hnone, rfl, rfl, .rfl, rfl, rfl, rfl, fun _ => rfl, id, heffects,
      fun ch' a ha => ?_⟩
    have hchan : (s.chans.set ch (some (.initErr c.init)))[ch']? = some (some a) := ha
    rw [List.getElem?_set] at hchan
    split_ifs at hchan with hch hlt
    · obtain rfl := Option.some.inj (Option.some.inj hchan)
      exact .inr ⟨hinit, i, c, List.mem_append_right _ (List.mem_singleton_self _), rfl⟩
    · exact .inl hchan

lemma Going.taskFlushed (h : s.Going r pre body ls) {i : ℕ} {c : Choice} (hidle : s.idle = true)
    (htask : s.tasks[i]? = some .flush) :
    ({ s with tasks := s.tasks.eraseIdx i, toLedger := s.toLedger.flush true } : State).Going r pre body
      (ls ++ [.task i c]) := by
  have hcount : (s.tasks.eraseIdx i).count .flush + 1 = s.tasks.count .flush := count_eraseIdx htask
  cases h.stage with
  | before _ _ _ htasks | handling _ _ _ _ _ _ _ htasks => simp [htasks] at htask
  | working _ _ _ _ _ _ _ htasks | flushed _ _ _ _ _ _ _ htasks => omega
  | returned as cs hwent hgo htasks =>
      refine h.stageOnly rfl rfl rfl rfl rfl (.flushed as cs hwent.goes
        (fun a ha => (hwent.given a ha).append _) hwent.phase (List.isEmpty_iff.mp hidle) hgo ?_ ?_)
      · change (s.tasks.eraseIdx i).count .flush = 0
        omega
      · change effects (s.toLedger.flush true).trace = _
        rw [Ledger.effects_flush, hwent.effects, hwent.agrees.flush, goView, effectsOf_append]

lemma Going.step (h : s.Going r pre body ls) {l : Label} (hstep : s.step l = some s') :
    s'.Going r pre body (ls ++ [l]) := by
  have hdef := h.filterDef
  cases l with
  | worker c => exact h.worker hstep
  | goroutine c => exact h.goroutine hstep
  | task i c =>
      obtain ⟨⟨hempty, -⟩, hrun⟩ : (s.idle = true ∧ s.destroyed = false) ∧ s.runTask i c = some s' := by
        simpa [State.step] using hstep
      rw [runTask] at hrun
      split at hrun
      · cases hrun
      · rename_i htask
        obtain rfl := Option.some.inj hrun
        exact h.taskFlushed hempty htask
      · rename_i ch req htask
        exact h.taskCallout htask hrun
  | requestHeaders eos =>
      cases step_moves hstep with
      | headersDeferred _ _ _ hbody => simp [hdef] at hbody
      | headersHandled _ hacc hphase hbody =>
          cases h.stage with
          | before _ hstack hgo htasks heffects hseq =>
              refine h.stageOnly rfl rfl rfl rfl rfl
                (.handling [] pre rfl ?_ ?_ rfl hgo htasks ?_ ?_ hseq)
              · cases eos <;> simp
              · rw [hstack, hdef]
              · rw [← h.request]
                rfl
              · exact (effects_silent rfl).trans heffects
          | handling _ _ _ hne | flushed _ _ _ _ hne => exact absurd hphase hne
          | working _ _ _ _ hwent | returned _ _ hwent => exact absurd hphase hwent.phase
  | calloutDone id result headers chunks =>
      cases step_moves hstep with
      | calloutDropped _ _ _ _ _ hid | calloutContinued _ _ _ _ _ _ hid => simp [h.callouts] at hid
      | doAnswered id' ch => exact h.aside aside_doAnswered
  | _ =>
      exact h.aside (aside_of_host (by rw [hdef]) (by rw [hdef]) h.streams rfl hstep)

/-! ### Runs -/

lemma going_new (r : ℕ) (pre : List UserCall) (body : Prog) :
    (State.new r { handler := goHandler pre body }).Going r pre body [] where
  filterDef := rfl
  request := rfl
  callouts := rfl
  streams := rfl
  chans ch a ha := by simp [State.new] at ha
  stage := .before rfl rfl rfl rfl rfl rfl

lemma going_run (hrun : run step (State.new r { handler := goHandler pre body }) ls = some s) :
    s.Going r pre body ls :=
  run_invariant_labels (fun _ _ _ _ h hs => h.step hs) (going_new r pre body) hrun

end State

end Luwes.Sahl
