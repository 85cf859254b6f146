import Luwes.Sahl.Mutations
import Luwes.Sahl.NilWriter
import Luwes.Sahl.Process

/-!
# What a step of the process can do

A request that is not destroyed has its objects to itself, and in them is what it has put there: that
is the invariant (`Sound`).  Under it a request of the process is the single request of the other
modules, its state reached by a run of `State.step` from `State.new` (`Reached`), and a step is one of
the branches of `Moves`, each with the process that it leads to.

Two facts about the objects carry this.  A filter in the pool is what `newSahlFilter` expects of one,
because `OnDestroy` has cleared what `newSahlFilter` does not set (`newSahlFilter_clean`), and the
Writer is overwritten as a whole when it is taken (`State.acquired_step`).

The invariant ends with `OnDestroy`, so a goroutine that goes on after that is not allowed
(`beforeDestroy`).
-/

namespace Luwes.Sahl

open LabelledRun

/-! ## One request -/

namespace State

/-- The two states are of one request, with the same objects. -/
structure Kept (s s' : State) : Prop where
  request : s'.request = s.request
  filterDef : s'.filterDef = s.filterDef
  hasReq : s'.hasReq = s.hasReq
  hasWriter : s'.hasWriter = s.hasWriter
  destroyed : s'.destroyed = s.destroyed

lemma Acts.kept {s s' : State} {who : Actor} {a : Act} {code : Code}
    (h : Acts s who a code s') : s.Kept s' := by
  cases h <;> constructor <;> rfl

lemma finish_kept (s : State) (cb : Callback) : s.Kept (s.finish cb) := by
  obtain ⟨fn, obs, heq, -⟩ := finish_eq s cb
  rw [heq]
  constructor <;> rfl

/-- Only `OnRequestHeaders` and `OnDestroy` change what a request has. -/
lemma Moves.kept {s s' : State} {l : Label} (h : Moves s l s')
    (hl : Process.usesPools l = false) : s.Kept s' := by
  cases h with
  | headersDeferred | headersHandled | destroyed => simp [Process.usesPools] at hl
  | workerActs _ _ _ _ _ _ _ _ _ hact | goroutineActs _ _ _ _ _ _ hact =>
      exact { hact.kept with }
  | callbackFinished c cb rest => exact { finish_kept { s with stack := rest } cb with }
  | _ => constructor <;> rfl

lemma headers_step {s s' : State} {eos : Bool} (h : s.step (.requestHeaders eos) = some s') :
    s'.request = s.request ∧ s'.filterDef = s.filterDef ∧ s'.destroyed = s.destroyed ∧
      s'.hasReq = true ∧ s'.hasWriter = true ∧ s'.writer.handle = s.request := by
  cases step_moves h <;> exact ⟨rfl, rfl, rfl, rfl, rfl, rfl⟩

/-- `OnDestroy` takes them away, and calls nothing on the handle. -/
lemma destroy_step {s s' : State} (h : s.step .destroy = some s') :
    s'.request = s.request ∧ s'.destroyed = true ∧ s'.hasWriter = false ∧
      s'.writer = s.writer ∧ callsOf (s'.trace.drop s.trace.length) = [] := by
  cases step_moves h
  exact ⟨rfl, rfl, rfl, rfl, by simp [Ledger.emit, callsOf]⟩

lemma request_step {s s' : State} {l : Label} (h : s.step l = some s') :
    s'.request = s.request := by
  cases hl : Process.usesPools l with
  | false => exact ((step_moves h).kept hl).request
  | true =>
      cases l with
      | requestHeaders eos => exact (headers_step h).1
      | destroy => exact (destroy_step h).1
      | _ => simp [Process.usesPools] at hl

/-- After `OnDestroy` only a goroutine can go on. -/
lemma step_destroyed {s s' : State} {l : Label} (hd : s.destroyed = true) (hstack : s.stack = [])
    (h : s.step l = some s') : ∃ c, l = .goroutine c := by
  cases l with
  | goroutine c => exact ⟨c, rfl⟩
  | _ => simp [step, accepting, delivering, hd, hstack] at h

/-- **The Writer is reset as a whole**: `OnRequestHeaders` does not see what was in it, nor whether the
filter has its objects already. -/
lemma acquired_step (s : State) (w : Writer) (eos : Bool) :
    ({ s with writer := w, hasReq := true, hasWriter := true } : State).step (.requestHeaders eos) =
      s.step (.requestHeaders eos) := rfl

/-! ## Where its calls go -/

/-- A Writer that the filter has points at the handle of the request. -/
def PointsHome (s : State) : Prop := s.hasWriter = true → s.writer.handle = s.request

lemma Operates.handle {s : State} {w : Writer} {g : Ledger} (h : s.Operates w g) :
    g.writer.handle = w.handle := by
  obtain ⟨_, _, ops, -, -, -, hw⟩ := h
  rw [hw, w.applyAll_handle]

lemma pointsHome_step {s s' : State} {l : Label} (hs : s.PointsHome) (h : s.step l = some s') :
    s'.PointsHome := by
  intro hw
  rw [request_step h]
  cases hl : Process.usesPools l with
  | false =>
      have hhas := ((step_moves h).kept hl).hasWriter ▸ hw
      rcases (step_moves h).writerOps with hops | ⟨-, hops⟩
      · rw [hops.handle, hs hhas]
      · rw [hops.handle]
        rfl
  | true =>
      cases l with
      | requestHeaders eos => exact (headers_step h).2.2.2.2.2
      | destroy =>
          rw [(destroy_step h).2.2.1] at hw
          contradiction
      | _ => simp [Process.usesPools] at hl

end State

/-- The request is in a state that a run from `newSahlFilter` leads to. -/
def Reached (r : ℕ) (d : FilterDef) (s : State) : Prop :=
  ∃ ls, run State.step (State.new r d) ls = some s

namespace Reached

variable {r : ℕ} {d : FilterDef} {s s' : State} {l : State.Label}

lemma new (r : ℕ) (d : FilterDef) : Reached r d (State.new r d) := ⟨[], rfl⟩

lemma step (hs : Reached r d s) (h : s.step l = some s') : Reached r d s' := by
  obtain ⟨ls, hrun⟩ := hs
  exact ⟨ls ++ [l], run_concat.mpr ⟨s, hrun, h⟩⟩

lemma request (hs : Reached r d s) : s.request = r := by
  obtain ⟨ls, hrun⟩ := hs
  exact run_invariant (I := fun s : State => s.request = r)
    (fun _ _ _ hI h => (State.request_step h).trans hI) rfl hrun

lemma filterDef (hs : Reached r d s) : s.filterDef = d := by
  obtain ⟨ls, hrun⟩ := hs
  exact filterDef_run hrun

lemma shape (hs : Reached r d s) : s.Shape := by
  obtain ⟨ls, hrun⟩ := hs
  exact State.shape_run hrun

lemma stack (hs : Reached r d s) : s.destroyed = true → s.stack = [] := by
  obtain ⟨ls, hrun⟩ := hs
  exact run_invariant (I := fun s : State => s.destroyed = true → s.stack = [])
    (fun _ _ _ hI h => State.destroyed_step hI (State.step_moves h)) (by simp [State.new]) hrun

lemma pointsHome (hs : Reached r d s) : s.PointsHome := by
  obtain ⟨ls, hrun⟩ := hs
  exact run_invariant (fun _ _ _ hI h => State.pointsHome_step hI h)
    (by simp [State.PointsHome, State.new]) hrun

/-- A step of a request calls its own handle. -/
lemma own_calls (hs : Reached r d s) (hlive : s.destroyed = false) (h : s.step l = some s')
    {f : SahlFilter} (hf : f.handle = r) : ∀ e ∈ Process.logged f s s', e.1 = r := by
  intro e he
  obtain ⟨c, hc, rfl⟩ := List.mem_map.mp he
  have hs' := hs.step h
  cases hw : s'.hasWriter with
  | true =>
      have hhome : s'.writer.handle = r := (hs'.pointsHome hw).trans hs'.request
      cases c <;> first | exact hhome | exact hf
  | false =>
      by_cases hphase : s'.phase = .awaitingHeaders
      · -- Before `OnRequestHeaders` the filter makes the only calls.
        obtain ⟨o, ho, hoc⟩ := List.mem_filterMap.mp hc
        have hpre := (hs'.shape.fresh hphase).prelude o (List.mem_of_mem_drop ho)
        obtain rfl : o = .call c := by
          cases o <;> simp_all
        cases c <;> first | exact hf | simp [Obs.isPrelude] at hpre
      · -- Without a Writer after that it has just been destroyed.
        have hd : s'.destroyed = true := by
          simpa [hw] using hs'.shape.hasWriter hphase
        have hdestroy : l = .destroy := by
          cases hl : Process.usesPools l with
          | false => simp [((State.step_moves h).kept hl).destroyed, hlive] at hd
          | true =>
              cases l with
              | destroy => rfl
              | requestHeaders eos => simp [(State.headers_step h).2.2.1, hlive] at hd
              | _ => simp [Process.usesPools] at hl
        subst hdestroy
        simp [(State.destroy_step h).2.2.2.2] at hc

end Reached

/-! ## The objects -/

/-- All that `newSahlFilter` does not set is as in a new filter. -/
structure SahlFilter.Clean (f : SahlFilter) : Prop where
  handler : f.handler = none
  req : f.req = none
  writer : f.writer = none
  respState : f.respState = {}

lemma SahlFilter.clean_new : SahlFilter.Clean {} := ⟨rfl, rfl, rfl, rfl⟩

/-- What `OnDestroy` puts into the pool is clean. -/
lemma SahlFilter.clean_onDestroy (f : SahlFilter) : f.onDestroy.Clean := ⟨rfl, rfl, rfl, rfl⟩

namespace Instance

/-- The filter object of an instance, as the last step of the instance has left it. -/
def object (x : Instance) (i : ℕ) (name : GoString) : SahlFilter where
  name := name
  handler := some x.rest.filterDef
  handle := i
  req := x.req
  writer := x.writer
  respState := x.rest.respState
  bodyDone := x.rest.bodyDone
  streamDone := x.rest.streamDone

/-- What the instance has at this pointer; after `OnDestroy` it has nothing. -/
def holds (x : Instance) (ptr : Instance → Option ℕ) : Option ℕ :=
  if x.rest.destroyed then none else ptr x

/-- The pointer to the filter object. -/
def filterPtr (x : Instance) : Option ℕ := some x.filter

/-- The instance after a read. -/
def saw (x : Instance) (r : Request) (t : Thread) (rd : Read) (answer : ℕ) : Instance :=
  { x with reads := x.reads ++ [⟨t, rd, (r.answer x.rest.writer rd).1, answer⟩] }

/-- The instance with its addresses forgotten. -/
def forget (x : Instance) : Instance :=
  { x with
    filter := 0
    writer := x.writer.map fun _ => 0
    req := x.req.map fun _ => 0 }

end Instance

/-- **`newSahlFilter` makes the same of every clean filter.** -/
lemma newSahlFilter_clean {f : SahlFilter} (hf : f.Clean) (name : GoString) (d : FilterDef)
    (i k a : ℕ) :
    newSahlFilter f name d i =
      some (Instance.object { factory := k, filter := a, rest := State.new i d } i name) := by
  obtain ⟨hhandler, hreq, hwriter, hresp⟩ := hf
  simp [newSahlFilter, Instance.object, State.new, hhandler, hreq, hwriter, hresp]

namespace Process

/-- The objects at the pointers of request `i` are as its last step has left them. -/
structure Holds (p : Process) (i : ℕ) (x : Instance) (name : GoString) : Prop where
  filter : p.filters.read x.filter = some (x.object i name)
  writer : ∀ a, x.writer = some a → p.writers.read a = some x.rest.writer
  hasReq : x.rest.hasReq = x.req.isSome
  hasWriter : x.rest.hasWriter = x.writer.isSome

section Holds

variable {p : Process} {i : ℕ} {x : Instance} {name : GoString}

lemma load_object (hreq : x.rest.request = i) (h : p.Holds i x name) :
    x.load (x.object i name) x.rest.writer = x.rest := by
  subst hreq
  simp only [Instance.load, Instance.object, Option.getD_some, ← h.hasReq, ← h.hasWriter]

lemma Holds.writerOf (h : p.Holds i x name) : p.writerOf x = some x.rest.writer := by
  unfold Process.writerOf
  cases hw : x.writer with
  | none => rfl
  | some a => exact h.writer a hw

/-- What is in the objects is all there is to the request. -/
lemma Holds.stateOf (h : p.Holds i x name) (hx : p.instances i = some x)
    (hreq : x.rest.request = i) : p.stateOf i = some x.rest := by
  simp [Process.stateOf, hx, h.filter, h.writerOf, load_object hreq h]

lemma Holds.act (h : p.Holds i x name) (hx : p.instances i = some x)
    (hreq : x.rest.request = i) (l : State.Label) :
    p.act i l =
      (x.rest.step l).map fun s' => p.commit i x (x.object i name) x.rest s' := by
  simp [Process.act, hx, h.filter, h.writerOf, load_object hreq h]

end Holds

/-! ## Who has which object -/

/-- The address that request `i` has at a pointer. -/
def held (m : ℕ → Option Instance) (ptr : Instance → Option ℕ) (i : ℕ) : Option ℕ :=
  (m i).bind fun x => x.holds ptr

lemma held_eq {m : ℕ → Option Instance} {i : ℕ} {x : Instance} (hx : m i = some x)
    (ptr : Instance → Option ℕ) : held m ptr i = x.holds ptr := by
  simp [held, hx]

lemma held_update (m : ℕ → Option Instance) (i : ℕ) (x : Instance) (ptr : Instance → Option ℕ) :
    held (Function.update m i (some x)) ptr = Function.update (held m ptr) i (x.holds ptr) :=
  Function.comp_update (fun o : Option Instance => o.bind fun x => x.holds ptr) m i (some x)

lemma held_update_self {m : ℕ → Option Instance} {i : ℕ} {x x' : Instance} (hx : m i = some x)
    {ptr : Instance → Option ℕ} (h : x'.holds ptr = x.holds ptr) :
    held (Function.update m i (some x')) ptr = held m ptr := by
  rw [held_update, h, ← held_eq hx, Function.update_eq_self]

/-- **The invariant.**  The requests that are not destroyed have distinct objects, in which is what
they have put there; the filters in the pool are clean. -/
structure Sound (p : Process) : Prop where
  alive : p.panicked = false
  configured : ∀ c ∈ p.factories, c.config.create c.call = .ok c.factory
  filters : p.filters.Owned (held p.instances Instance.filterPtr)
  writers : p.writers.Owned (held p.instances Instance.writer)
  requests : p.requests.Owned (held p.instances Instance.req)
  pooled : ∀ a ∈ p.filters.free, ∀ f, p.filters.read a = some f → f.Clean
  instances : ∀ i x, p.instances i = some x → ∃ c, p.factories[x.factory]? = some c ∧
    Reached i c.factory.filterDef x.rest ∧
      (x.rest.destroyed = false → p.Holds i x c.factory.name)

lemma sound_new : Sound {} where
  alive := rfl
  configured := by simp
  filters := ObjectPool.owned_empty
  writers := ObjectPool.owned_empty
  requests := ObjectPool.owned_empty
  pooled := by simp
  instances := by simp

/-- Request `i` has its objects. -/
structure Live (p : Process) (i : ℕ) (x : Instance) (c : Configured) : Prop where
  inst : p.instances i = some x
  live : x.rest.destroyed = false
  factory : p.factories[x.factory]? = some c
  reached : Reached i c.factory.filterDef x.rest
  holds : p.Holds i x c.factory.name

section Sound

variable {p p' : Process} {i j : ℕ} {x y : Instance} {c d : Configured} {name : GoString}

lemma Holds.frame (h : p.Holds i x name)
    (hfilters : p'.filters.read x.filter = p.filters.read x.filter)
    (hwriters : ∀ a, x.writer = some a → p'.writers.read a = p.writers.read a) :
    p'.Holds i x name where
  filter := hfilters.trans h.filter
  writer a ha := (hwriters a ha).trans (h.writer a ha)
  hasReq := h.hasReq
  hasWriter := h.hasWriter

namespace Live

lemma held (h : p.Live i x c) (ptr : Instance → Option ℕ) :
    held p.instances ptr i = ptr x := by
  simp [held_eq h.inst, Instance.holds, h.live]

lemma stateOf (h : p.Live i x c) : p.stateOf i = some x.rest :=
  h.holds.stateOf h.inst h.reached.request

lemma act (h : p.Live i x c) (l : State.Label) :
    p.act i l = (x.rest.step l).map fun s' =>
      p.commit i x (x.object i c.factory.name) x.rest s' :=
  h.holds.act h.inst h.reached.request l

end Live

namespace Sound

lemma live (hp : p.Sound) (hx : p.instances i = some x) (hlive : x.rest.destroyed = false) :
    ∃ c, p.Live i x c := by
  obtain ⟨c, hc, hreached, hholds⟩ := hp.instances i x hx
  exact ⟨c, hx, hlive, hc, hreached, hholds hlive⟩

lemma stack (hp : p.Sound) (hx : p.instances i = some x) :
    x.rest.destroyed = true → x.rest.stack = [] := by
  obtain ⟨c, -, hreached, -⟩ := hp.instances i x hx
  exact hreached.stack

lemma filter_ne (hp : p.Sound) (hx : p.Live i x c) (hy : p.Live j y d) (hj : j ≠ i) :
    y.filter ≠ x.filter :=
  hp.filters.ne (hx.held Instance.filterPtr) (hy.held Instance.filterPtr) hj

lemma writer_ne (hp : p.Sound) (hx : p.Live i x c) (hy : p.Live j y d) (hj : j ≠ i) {a b : ℕ}
    (ha : x.writer = some a) (hb : y.writer = some b) : b ≠ a :=
  hp.writers.ne ((hx.held _).trans ha) ((hy.held _).trans hb) hj

lemma req_ne (hp : p.Sound) (hx : p.Live i x c) (hy : p.Live j y d) (hj : j ≠ i) {a b : ℕ}
    (ha : x.req = some a) (hb : y.req = some b) : b ≠ a :=
  hp.requests.ne ((hx.held _).trans ha) ((hy.held _).trans hb) hj

lemma ne_of_free (hp : p.Sound) (hx : p.Live i x c) {a : ℕ} (ha : a ∈ p.filters.free) :
    a ≠ x.filter := by
  rintro rfl
  exact hp.filters.busy i _ (hx.held Instance.filterPtr) ha

/-- A step of request `i` after which the invariant holds of `i` and of what it has changed. -/
lemma of_update {q : Process} (hp : p.Sound) (halive : q.panicked = false)
    (hfactories : q.factories = p.factories)
    (hinstances : q.instances = Function.update p.instances i (some x))
    (hfilters : q.filters.Owned (held q.instances Instance.filterPtr))
    (hwriters : q.writers.Owned (held q.instances Instance.writer))
    (hrequests : q.requests.Owned (held q.instances Instance.req))
    (hpooled : ∀ a ∈ q.filters.free, ∀ f, q.filters.read a = some f → f.Clean)
    (hframe : ∀ j y d, j ≠ i → p.Live j y d →
      q.filters.read y.filter = p.filters.read y.filter ∧
        ∀ a, y.writer = some a → q.writers.read a = p.writers.read a)
    (hc : p.factories[x.factory]? = some c) (hreached : Reached i c.factory.filterDef x.rest)
    (hholds : x.rest.destroyed = false → q.Holds i x c.factory.name) : q.Sound where
  alive := halive
  configured := hfactories ▸ hp.configured
  filters := hfilters
  writers := hwriters
  requests := hrequests
  pooled := hpooled
  instances j y hy := by
    rw [hfactories]
    by_cases hj : j = i
    · subst hj
      obtain rfl : x = y := by simpa [hinstances] using hy
      exact ⟨c, hc, hreached, hholds⟩
    · rw [hinstances, Function.update_of_ne hj] at hy
      obtain ⟨d, hd, hreached', hholds'⟩ := hp.instances j y hy
      refine ⟨d, hd, hreached', fun hlive => ?_⟩
      obtain ⟨hf, hw⟩ := hframe j y d hj ⟨hy, hlive, hd, hreached', hholds' hlive⟩
      exact (hholds' hlive).frame hf hw

/-! ## Each step -/

lemma commit (hp : p.Sound) (hx : p.Live i x c) {l : State.Label} {s' : State}
    (hl : usesPools l = false) (h : x.rest.step l = some s') :
    (p.commit i x (x.object i c.factory.name) x.rest s').Sound := by
  have hkept := (State.step_moves h).kept hl
  have hheld : ∀ ptr : Instance → Option ℕ, ptr { x with rest := s' } = ptr x →
      Process.held (Function.update p.instances i (some { x with rest := s' })) ptr =
        Process.held p.instances ptr := fun ptr hptr =>
    held_update_self hx.inst (by simp only [Instance.holds, hkept.destroyed, hptr])
  refine hp.of_update (x := { x with rest := s' }) hp.alive rfl rfl ?_ ?_ ?_ ?_ ?_ hx.factory
    (hx.reached.step h) ?_
  · exact (hheld Instance.filterPtr rfl) ▸ hp.filters.write _ _
  · have howned : (p.commit i x (x.object i c.factory.name) x.rest s').writers.Owned
        (Process.held p.instances Instance.writer) := by
      simp only [Process.commit]
      cases x.writer with
      | none => exact hp.writers
      | some a => exact hp.writers.write _ _
    exact (hheld Instance.writer rfl) ▸ howned
  · exact (hheld Instance.req rfl) ▸ hp.requests
  · intro a ha f hf
    exact hp.pooled a ha f ((ObjectPool.read_write_ne (hp.ne_of_free hx ha) _).symm.trans hf)
  · intro j y d hj hy
    refine ⟨ObjectPool.read_write_ne (hp.filter_ne hx hy hj) _, fun b hb => ?_⟩
    simp only [Process.commit]
    cases ha : x.writer with
    | none => rfl
    | some a => exact ObjectPool.read_write_ne (hp.writer_ne hx hy hj ha hb) _
  · intro _
    refine ⟨?_, fun a ha => ?_, hkept.hasReq.trans hx.holds.hasReq,
      hkept.hasWriter.trans hx.holds.hasWriter⟩
    · refine (ObjectPool.read_write_self hx.holds.filter).trans ?_
      simp [SahlFilter.store, Instance.object, hkept.filterDef]
    · simp only [Process.commit, show x.writer = some a from ha]
      exact ObjectPool.read_write_self (hx.holds.writer a ha)

end Sound

end Sound

/-! ## What a step does -/

/-- `filterFactory.Create` has taken the filter `r`. -/
def created (p : Process) (i k : ℕ) (factory : FilterFactory) (r : ℕ × ObjectPool SahlFilter) :
    Process :=
  let x : Instance := { factory := k, filter := r.1, rest := State.new i factory.filterDef }
  { p with
    filters := r.2.write r.1 (x.object i factory.name)
    instances := Function.update p.instances i (some x) }

/-- `OnRequestHeaders` has taken the Request `q`, which was `r`, and the Writer `a`. -/
def acquired (p : Process) (i : ℕ) (x : Instance) (name : GoString) (headers : HeaderMap)
    (q : ℕ × ObjectPool Request) (r : Request) (a : ℕ × ObjectPool Writer) (s' : State) : Process :=
  let f : SahlFilter := { x.object i name with req := some q.1, writer := some a.1 }
  { p with
    filters := p.filters.write x.filter (f.store s')
    requests := q.2.write q.1 (r.reset headers i name)
    writers := a.2.write a.1 s'.writer
    instances := Function.update p.instances i
      (some { x with req := some q.1, writer := some a.1, rest := s' })
    log := p.log ++ [(i, .getScheduler)] ++ logged f x.rest s' }

/-- Code of request `i` has read, and the request is now `x'`. -/
def looked (p : Process) (i : ℕ) (x x' : Instance) (q : ℕ) (r : Request) (rd : Read) : Process :=
  { p with
    requests := p.requests.write q (r.answer x.rest.writer rd).2
    instances := Function.update p.instances i (some x') }

/-- `OnDestroy` has given the objects back. -/
def released (p : Process) (i : ℕ) (x : Instance) (name : GoString) (s' : State) : Process :=
  let p' := p.commit i x (x.object i name) x.rest s'
  { p' with
    filters := (p'.filters.write x.filter ((x.object i name).store s').onDestroy).put x.filter
    requests := x.req.elim p'.requests p'.requests.put
    writers := x.writer.elim p'.writers p'.writers.put }

/-- A step, branch by branch, while the requests have their objects. -/
inductive Moves (p : Process) : Label → Process → Prop
  | configured (config : ConfigFactory) (call : FactoryCall) (factory : FilterFactory)
      (h : config.create call = .ok factory) :
      Moves p (.configure config call)
        { p with factories := p.factories ++ [⟨config, call, factory⟩] }
  | notConfigured (config : ConfigFactory) (call : FactoryCall)
      (hok : ∀ factory, config.create call ≠ .ok factory) (hpanics : config.create call ≠ .panics) :
      Moves p (.configure config call) p
  | created (i k : ℕ) (choice : Option ℕ) (c : Configured) (r : ℕ × ObjectPool SahlFilter)
      (hi : p.instances i = none) (hc : p.factories[k]? = some c)
      (hget : p.filters.get {} choice = some r) :
      Moves p (.create i k choice) (p.created i k c.factory r)
  | acquired (i : ℕ) (endOfStream : Bool) (headers : HeaderMap) (reqChoice writerChoice : Option ℕ)
      (x : Instance) (c : Configured) (q : ℕ × ObjectPool Request) (r : Request)
      (a : ℕ × ObjectPool Writer) (s' : State) (hx : p.Live i x c)
      (hq : p.requests.get {} reqChoice = some q) (hr : q.2.read q.1 = some r)
      (ha : p.writers.get Writer.zero writerChoice = some a)
      (h : x.rest.step (.requestHeaders endOfStream) = some s') :
      Moves p (.requestHeaders i endOfStream headers reqChoice writerChoice)
        (p.acquired i x c.factory.name headers q r a s')
  | acted (i : ℕ) (l : State.Label) (x : Instance) (c : Configured) (s' : State)
      (hx : p.Live i x c) (hl : usesPools l = false) (h : x.rest.step l = some s') :
      Moves p (.act i l) (p.commit i x (x.object i c.factory.name) x.rest s')
  | read (i : ℕ) (t : Thread) (rd : Read) (answer : ℕ) (x : Instance) (c : Configured) (q : ℕ)
      (r : Request) (s' : State) (hx : p.Live i x c) (hq : x.req = some q)
      (hr : p.requests.read q = some r) (hobs : x.rest.observing t = true)
      (h : x.rest.step (t.label { answer := answer }) = some s') :
      Moves p (.read i t rd answer)
        ((p.looked i x (x.saw r t rd answer) q r rd).commit i (x.saw r t rd answer)
          (x.object i c.factory.name) x.rest s')
  | released (i : ℕ) (x : Instance) (c : Configured) (s' : State) (hx : p.Live i x c)
      (h : x.rest.step .destroy = some s') :
      Moves p (.destroy i) (p.released i x c.factory.name s')

/-- The step is none of a goroutine whose own request has been destroyed. -/
def beforeDestroy (p : Process) : Label → Bool
  | .act i (.goroutine _) | .read i .goroutine _ _ =>
    (p.instances i).all fun x => !x.rest.destroyed
  | _ => true

section Steps

variable {p p' : Process} {i : ℕ} {x : Instance} {c : Configured}

lemma usesPools_label (t : Thread) (ch : State.Choice) : usesPools (t.label ch) = false := by
  cases t <;> rfl

/-- A request that takes a step is live, unless a goroutine of it takes it after `OnDestroy`. -/
lemma live_of_act {l : State.Label} {s : State} (hx : p.instances i = some x) (hs : x.rest = s)
    (hstack : s.destroyed = true → s.stack = [])
    (hlate : ∀ ch, l = .goroutine ch → s.destroyed = false) (h : p.act i l = some p') :
    s.destroyed = false := by
  subst hs
  by_contra hd
  have hd : x.rest.destroyed = true := by simpa using hd
  simp only [Process.act, hx, Option.bind_some, Option.bind_eq_some_iff,
    Option.map_eq_some_iff] at h
  obtain ⟨f, -, w, -, s', hstep, -⟩ := h
  have hstack' : (x.load f w).stack = [] := hstack hd
  obtain ⟨ch, rfl⟩ := State.step_destroyed (s := x.load f w) hd hstack' hstep
  simp [hlate ch rfl] at hd

lemma Live.acquire_act (hx : p.Live i x c) {eos : Bool} {headers : HeaderMap}
    {reqChoice writerChoice : Option ℕ} {q : ℕ × ObjectPool Request} {r : Request}
    {a : ℕ × ObjectPool Writer} {w : Writer} (hq : p.requests.get {} reqChoice = some q)
    (hr : q.2.read q.1 = some r) (ha : p.writers.get Writer.zero writerChoice = some a)
    (hw : a.2.read a.1 = some w) :
    ((p.acquire i headers reqChoice writerChoice).bind fun p' => p'.act i (.requestHeaders eos)) =
      (x.rest.step (.requestHeaders eos)).map fun s' =>
        p.acquired i x c.factory.name headers q r a s' := by
  have hreq : x.rest.request = i := hx.reached.request
  -- The step starts with the used Writer, and does not see it.
  have hload : ({ x with req := some q.1, writer := some a.1 } : Instance).load
      { x.object i c.factory.name with req := some q.1, writer := some a.1 } w =
        { x.rest with writer := w, hasReq := true, hasWriter := true } := by
    rw [← hreq]
    rfl
  have hread := ObjectPool.read_write_self
    (x := { x.object i c.factory.name with req := some q.1, writer := some a.1 }) hx.holds.filter
  simp only [Process.acquire, hx.inst, hx.holds.filter, hq, hr, ha, Option.bind_some,
    Option.map_some, Process.act, Function.update_self, hread, Process.writerOf, hw, hload,
    State.acquired_step]
  simp [Process.commit, Process.acquired, Process.logged, Process.callHandle, Instance.object]

lemma Live.look (hx : p.Live i x c) {t : Thread} {rd : Read} {answer q : ℕ} {r : Request}
    (hq : x.req = some q) (hr : p.requests.read q = some r) :
    p.look i t rd answer =
      if x.rest.observing t then some (p.looked i x (x.saw r t rd answer) q r rd) else none := by
  simp [Process.look, hx.stateOf, hx.inst, hq, hr, Process.looked, Instance.saw]

lemma Live.looked (hx : p.Live i x c) (q : ℕ) (r : Request) (t : Thread) (rd : Read)
    (answer : ℕ) :
    (p.looked i x (x.saw r t rd answer) q r rd).Live i (x.saw r t rd answer) c where
  inst := Function.update_self _ _ _
  live := hx.live
  factory := hx.factory
  reached := hx.reached
  holds := ⟨hx.holds.filter, hx.holds.writer, hx.holds.hasReq, hx.holds.hasWriter⟩

lemma Live.act_release (hx : p.Live i x c) :
    ((p.act i .destroy).bind fun p' => p'.release i) =
      (x.rest.step .destroy).map fun s' => p.released i x c.factory.name s' := by
  rw [hx.act]
  cases x.rest.step .destroy with
  | none => rfl
  | some s' =>
      simp [Process.release, Process.commit, Process.released,
        ObjectPool.read_write_self hx.holds.filter]
      exact ⟨rfl, rfl⟩

lemma exists_read_of_get {α : Type*} {pool : ObjectPool α} {own : ℕ → Option ℕ} {new : α}
    {choice : Option ℕ} {r : ℕ × ObjectPool α} (h : pool.Owned own)
    (hget : pool.get new choice = some r) : ∃ f, r.2.read r.1 = some f :=
  (h.get (i := 0) hget).2

lemma Sound.clean_of_get (hp : p.Sound) {choice : Option ℕ} {r : ℕ × ObjectPool SahlFilter}
    (hget : p.filters.get {} choice = some r) {f : SahlFilter} (hf : r.2.read r.1 = some f) :
    f.Clean := by
  obtain ⟨-, ⟨-, hnew⟩ | ⟨hfree, hheap⟩⟩ := ObjectPool.get_cases hget
  · obtain rfl := Option.some.inj (hf.symm.trans hnew)
    exact SahlFilter.clean_new
  · refine hp.pooled _ hfree f ?_
    rwa [ObjectPool.read, ← hheap]

lemma Sound.create (hp : p.Sound) {k : ℕ} {factory : FilterFactory} {choice : Option ℕ}
    {r : ℕ × ObjectPool SahlFilter} (hget : p.filters.get {} choice = some r) :
    p.create i k factory choice = some (p.created i k factory r) := by
  obtain ⟨f, hf⟩ := exists_read_of_get hp.filters hget
  simp only [Process.create, hget, hf, Option.bind_some, Option.map_some,
    newSahlFilter_clean (hp.clean_of_get hget hf) factory.name factory.filterDef i k r.1]
  rfl

lemma Sound.step_eq (hp : p.Sound) (l : Label) : p.step l = p.next l := by
  simp [Process.step, hp.alive]

/-- **Each of these is a step.** -/
lemma Moves.step (hp : p.Sound) {l : Label} (h : p.Moves l p') : p.step l = some p' := by
  rw [hp.step_eq]
  cases h with
  | configured config call factory h => simp only [next, h]
  | notConfigured config call hok hpanics => simp only [next]
  | created i k choice c r hi hc hget => simp [next, hi, hc, hp.create hget]
  | acquired i eos headers reqChoice writerChoice x c q r a s' hx hq hr ha h =>
      obtain ⟨w, hw⟩ := exists_read_of_get hp.writers ha
      simp [next, hx.acquire_act hq hr ha hw, h]
  | acted i l x c s' hx hl h => simp [next, hl, hx.act, h]
  | read i t rd answer x c q r s' hx hq hr hobs h =>
      simp only [next, hx.look hq hr, hobs, if_true, Option.bind_some]
      rw [(hx.looked q r t rd answer).act]
      exact Option.map_eq_some_iff.mpr ⟨s', h, rfl⟩
  | released i x c s' hx h => simp [next, hx.act_release, h]

/-- `OnRequestHeaders` is a step of a live request. -/
lemma Sound.moves_requestHeaders (hp : p.Sound) {eos : Bool} {headers : HeaderMap}
    {reqChoice writerChoice : Option ℕ}
    (h : ((p.acquire i headers reqChoice writerChoice).bind fun p' =>
      p'.act i (.requestHeaders eos)) = some p') :
    p.Moves (.requestHeaders i eos headers reqChoice writerChoice) p' := by
  have hstep := h
  obtain ⟨p₁, hacquire, hact⟩ := Option.bind_eq_some_iff.mp h
  simp only [Process.acquire, Option.bind_eq_some_iff, Option.map_eq_some_iff] at hacquire
  obtain ⟨x, hx, f, -, q, hq, r, hr, a, ha, hp₁⟩ := hacquire
  have hx₁ : p₁.instances i = some { x with req := some q.1, writer := some a.1 } := by
    rw [← hp₁]
    exact Function.update_self _ _ _
  have hstack := hp.stack hx
  have hlive : x.rest.destroyed = false := live_of_act hx₁ rfl hstack (by simp) hact
  obtain ⟨c, hx⟩ := hp.live hx hlive
  obtain ⟨w, hw⟩ := exists_read_of_get hp.writers ha
  obtain ⟨s', hs', rfl⟩ := Option.map_eq_some_iff.mp ((hx.acquire_act hq hr ha hw).symm.trans hstep)
  exact .acquired i eos headers reqChoice writerChoice x c q r a s' hx hq hr ha hs'

/-- So is a read, if the request's goroutine does not outlive it. -/
lemma Sound.moves_read (hp : p.Sound) {t : Thread} {rd : Read} {answer : ℕ}
    (hlate : p.beforeDestroy (.read i t rd answer) = true)
    (h : ((p.look i t rd answer).bind fun p' =>
      p'.act i (t.label { answer := answer })) = some p') :
    p.Moves (.read i t rd answer) p' := by
  obtain ⟨p₁, hlook, hact⟩ := Option.bind_eq_some_iff.mp h
  have hlook' := hlook
  simp only [Process.look, Option.bind_eq_some_iff] at hlook
  obtain ⟨s, -, x, hx, q, hq, r, hr, hsome⟩ := hlook
  split_ifs at hsome
  have hx₁ : p₁.instances i = some { x with
      reads := x.reads ++ [⟨t, rd, (r.answer s.writer rd).1, answer⟩] } := by
    rw [← Option.some.inj hsome]
    exact Function.update_self _ _ _
  have hlater : ∀ ch, t.label { answer := answer } = .goroutine ch →
      x.rest.destroyed = false := by
    rintro ch hch
    cases t with
    | worker => cases hch
    | goroutine => simpa [beforeDestroy, hx] using hlate
  have hstack := hp.stack hx
  have hlive : x.rest.destroyed = false := live_of_act hx₁ rfl hstack hlater hact
  obtain ⟨c, hx⟩ := hp.live hx hlive
  rw [hx.look hq hr] at hlook'
  split_ifs at hlook' with hobs
  obtain rfl := Option.some.inj hlook'
  rw [(hx.looked q r t rd answer).act] at hact
  obtain ⟨s', hs', rfl⟩ := Option.map_eq_some_iff.mp hact
  exact .read i t rd answer x c q r s' hx hq hr hobs hs'

/-- **Every step is one of these**, if no goroutine takes it after the `OnDestroy` of its request. -/
lemma Sound.moves (hp : p.Sound) {l : Label} (hlate : p.beforeDestroy l = true)
    (h : p.step l = some p') : p.Moves l p' := by
  rw [hp.step_eq] at h
  cases l with
  | configure config call =>
      simp only [next] at h
      cases hcreate : config.create call with
      | ok factory =>
          simp only [hcreate] at h
          obtain rfl := Option.some.inj h
          exact .configured config call factory hcreate
      | panics => simp [hcreate] at h
      | _ =>
          simp only [hcreate] at h
          obtain rfl := Option.some.inj h
          exact .notConfigured config call (by simp [hcreate]) (by simp [hcreate])
  | create i k choice =>
      simp only [next] at h
      split_ifs at h with hi
      obtain ⟨c, hc, h⟩ := Option.bind_eq_some_iff.mp h
      cases hget : p.filters.get {} choice with
      | none => simp [Process.create, hget] at h
      | some r =>
          rw [hp.create hget] at h
          obtain rfl := Option.some.inj h
          exact .created i k choice c r (by simpa using hi) hc hget
  | requestHeaders i eos headers reqChoice writerChoice => exact hp.moves_requestHeaders h
  | act i l =>
      simp only [next] at h
      split_ifs at h with hl
      have hact := h
      simp only [Process.act, Option.bind_eq_some_iff] at hact
      obtain ⟨x, hx, -⟩ := hact
      have hlive : x.rest.destroyed = false := by
        refine live_of_act hx rfl (hp.stack hx) ?_ h
        rintro ch rfl
        simpa [beforeDestroy, hx] using hlate
      obtain ⟨c, hx⟩ := hp.live hx hlive
      rw [hx.act] at h
      obtain ⟨s', hs', rfl⟩ := Option.map_eq_some_iff.mp h
      exact .acted i l x c s' hx (by simpa using hl) hs'
  | read i t rd answer => exact hp.moves_read hlate h
  | destroy i =>
      have hact := h
      simp only [next, Process.act, Option.bind_eq_some_iff] at hact
      obtain ⟨p₁, ⟨x, hx, -⟩, -⟩ := hact
      obtain ⟨p₂, hp₂, -⟩ := Option.bind_eq_some_iff.mp h
      have hlive : x.rest.destroyed = false := live_of_act hx rfl (hp.stack hx) (by simp) hp₂
      obtain ⟨c, hx⟩ := hp.live hx hlive
      obtain ⟨s', hs', rfl⟩ := Option.map_eq_some_iff.mp (hx.act_release.symm.trans h)
      exact .released i x c s' hx hs'

/-! ## The invariant holds in every run -/

namespace Sound

lemma looked (hp : p.Sound) (hx : p.Live i x c) (q : ℕ) (r : Request) (t : Thread) (rd : Read)
    (answer : ℕ) : (p.looked i x (x.saw r t rd answer) q r rd).Sound := by
  have hheld : ∀ ptr : Instance → Option ℕ, ptr (x.saw r t rd answer) = ptr x →
      held (Function.update p.instances i (some (x.saw r t rd answer))) ptr =
        held p.instances ptr := fun ptr hptr => by
    refine held_update_self hx.inst ?_
    rw [Instance.holds, Instance.holds, hptr]
    rfl
  exact hp.of_update (x := x.saw r t rd answer) hp.alive rfl rfl
    ((hheld Instance.filterPtr rfl) ▸ hp.filters) ((hheld Instance.writer rfl) ▸ hp.writers)
    ((hheld Instance.req rfl) ▸ hp.requests.write _ _) hp.pooled
    (fun _ _ _ _ _ => ⟨rfl, fun _ _ => rfl⟩) hx.factory hx.reached
    (fun _ => (hx.looked q r t rd answer).holds)

lemma created (hp : p.Sound) {k : ℕ} {choice : Option ℕ} {r : ℕ × ObjectPool SahlFilter}
    (hi : p.instances i = none) (hc : p.factories[k]? = some c)
    (hget : p.filters.get {} choice = some r) : (p.created i k c.factory r).Sound := by
  obtain ⟨howned, f, hf⟩ := hp.filters.get (i := i) hget
  have hnone : ∀ ptr, held p.instances ptr i = none := fun ptr => by simp [held, hi]
  obtain ⟨hsub, -⟩ := ObjectPool.get_cases hget
  refine hp.of_update (q := p.created i k c.factory r)
    (x := { factory := k, filter := r.1, rest := State.new i c.factory.filterDef })
    hp.alive rfl rfl ?_ ?_ ?_ ?_ ?_ hc (Reached.new _ _) ?_
  · simp only [Process.created, held_update]
    exact howned.write _ _
  · simp only [Process.created, held_update]
    exact hp.writers.leave (hnone Instance.writer)
  · simp only [Process.created, held_update]
    exact hp.requests.leave (hnone Instance.req)
  · intro a ha g hg
    have hne : a ≠ r.1 := fun heq => howned.busy i r.1 (Function.update_self _ _ _) (heq ▸ ha)
    have hmem : a ∈ p.filters.free := hsub.subset ha
    obtain ⟨g', hg'⟩ : ∃ g', p.filters.read a = some g' :=
      ⟨_, List.getElem?_eq_getElem (hp.filters.freeLt a hmem)⟩
    have hread : r.2.read a = some g' := ObjectPool.read_get hget hg'
    have hg : r.2.read a = some g := (ObjectPool.read_write_ne hne _).symm.trans hg
    obtain rfl := Option.some.inj (hread.symm.trans hg)
    exact hp.pooled a hmem g' hg'
  · intro j y d hj hy
    have hne : y.filter ≠ r.1 :=
      howned.ne (Function.update_self _ _ _)
        ((Function.update_of_ne hj _ _).trans (hy.held Instance.filterPtr)) hj
    refine ⟨?_, fun _ _ => rfl⟩
    rw [hy.holds.filter]
    exact (ObjectPool.read_write_ne hne _).trans (ObjectPool.read_get hget hy.holds.filter)
  · intro _
    exact ⟨ObjectPool.read_write_self hf, nofun, rfl, rfl⟩

lemma acquired (hp : p.Sound) (hx : p.Live i x c) {eos : Bool} {headers : HeaderMap}
    {reqChoice writerChoice : Option ℕ} {q : ℕ × ObjectPool Request} {r : Request}
    {a : ℕ × ObjectPool Writer} {s' : State} (hq : p.requests.get {} reqChoice = some q)
    (ha : p.writers.get Writer.zero writerChoice = some a)
    (h : x.rest.step (.requestHeaders eos) = some s') :
    (p.acquired i x c.factory.name headers q r a s').Sound := by
  obtain ⟨hrequests, -⟩ := hp.requests.get (i := i) hq
  obtain ⟨hwriters, w, hw⟩ := hp.writers.get (i := i) ha
  obtain ⟨-, hdef, hdestroyed, hhasReq, hhasWriter, -⟩ := State.headers_step h
  have hlive : s'.destroyed = false := hdestroyed.trans hx.live
  refine hp.of_update (q := p.acquired i x c.factory.name headers q r a s')
    (x := { x with req := some q.1, writer := some a.1, rest := s' })
    hp.alive rfl rfl ?_ ?_ ?_ ?_ ?_ hx.factory (hx.reached.step h) ?_
  · simp only [Process.acquired]
    rw [held_update_self hx.inst (by simp [Instance.holds, hlive, hx.live, Instance.filterPtr])]
    exact hp.filters.write _ _
  · simp only [Process.acquired, held_update, Instance.holds, hlive]
    exact hwriters.write _ _
  · simp only [Process.acquired, held_update, Instance.holds, hlive]
    exact hrequests.write _ _
  · intro b hb f hf
    exact hp.pooled b hb f ((ObjectPool.read_write_ne (hp.ne_of_free hx hb) _).symm.trans hf)
  · intro j y d hj hy
    refine ⟨ObjectPool.read_write_ne (hp.filter_ne hx hy hj) _, fun b hb => ?_⟩
    have hne : b ≠ a.1 :=
      hwriters.ne (Function.update_self _ _ _)
        ((Function.update_of_ne hj _ _).trans ((hy.held Instance.writer).trans hb)) hj
    rw [hy.holds.writer b hb]
    exact (ObjectPool.read_write_ne hne _).trans (ObjectPool.read_get ha (hy.holds.writer b hb))
  · intro _
    refine ⟨?_, ?_, hhasReq, hhasWriter⟩
    · refine (ObjectPool.read_write_self hx.holds.filter).trans ?_
      simp [SahlFilter.store, Instance.object, hdef]
    · rintro b hb
      obtain rfl := Option.some.inj hb
      exact ObjectPool.read_write_self hw

lemma released (hp : p.Sound) (hx : p.Live i x c) {s' : State}
    (h : x.rest.step .destroy = some s') : (p.released i x c.factory.name s').Sound := by
  obtain ⟨-, hd, -⟩ := State.destroy_step h
  have hheld : ∀ ptr : Instance → Option ℕ,
      held (Function.update p.instances i (some { x with rest := s' })) ptr =
        Function.update (held p.instances ptr) i none := fun ptr => by
    simp [held_update, Instance.holds, hd]
  refine hp.of_update (q := p.released i x c.factory.name s') (x := { x with rest := s' })
    hp.alive rfl rfl ?_ ?_ ?_ ?_ ?_ hx.factory (hx.reached.step h) ?_
  · exact (hheld Instance.filterPtr) ▸
      ((hp.filters.write _ _).write _ _).put (hx.held Instance.filterPtr)
  · refine (hheld Instance.writer) ▸ ?_
    have hwritten : (p.commit i x (x.object i c.factory.name) x.rest s').writers.Owned
        (held p.instances Instance.writer) := by
      simp only [Process.commit]
      cases x.writer with
      | none => exact hp.writers
      | some a => exact hp.writers.write _ _
    exact hwritten.release (hx.held Instance.writer)
  · exact (hheld Instance.req) ▸ hp.requests.release (hx.held Instance.req)
  · intro a ha f hf
    simp only [Process.released, Process.commit, ObjectPool.read_put,
      ObjectPool.write_write] at hf
    rcases List.mem_cons.mp ha with rfl | ha
    · rw [ObjectPool.read_write_self hx.holds.filter] at hf
      obtain rfl := Option.some.inj hf
      exact SahlFilter.clean_onDestroy _
    · exact hp.pooled a ha f ((ObjectPool.read_write_ne (hp.ne_of_free hx ha) _).symm.trans hf)
  · intro j y d hj hy
    simp only [Process.released, Process.commit, ObjectPool.read_put, ObjectPool.write_write]
    refine ⟨ObjectPool.read_write_ne (hp.filter_ne hx hy hj) _, fun b hb => ?_⟩
    cases ha : x.writer with
    | none => rfl
    | some a => exact ObjectPool.read_write_ne (hp.writer_ne hx hy hj ha hb) _
  · intro hlive
    simp [hd] at hlive

lemma step (hp : p.Sound) {l : Label} (h : p.Moves l p') : p'.Sound := by
  cases h with
  | configured config call factory hcreate =>
      refine { hp with configured := ?_, instances := fun i x hx => ?_ }
      · intro c hc
        rcases List.mem_append.mp hc with hc | hc
        · exact hp.configured c hc
        · rw [List.mem_singleton.mp hc]
          exact hcreate
      · obtain ⟨c, hc, hreached, hholds⟩ := hp.instances i x hx
        obtain ⟨hlt, -⟩ := List.getElem?_eq_some_iff.mp hc
        refine ⟨c, (List.getElem?_append_left hlt).trans hc, hreached, fun hlive => ?_⟩
        exact (hholds hlive).frame rfl fun _ _ => rfl
  | notConfigured => exact hp
  | created i k choice c r hi hc hget => exact hp.created hi hc hget
  | acquired i eos headers reqChoice writerChoice x c q r a s' hx hq hr ha h =>
      exact hp.acquired hx hq ha h
  | acted i l x c s' hx hl h => exact hp.commit hx hl h
  | read i t rd answer x c q r s' hx hq hr hobs h =>
      exact (hp.looked hx q r t rd answer).commit (hx.looked q r t rd answer)
        (usesPools_label t _) h
  | released i x c s' hx h => exact hp.released hx h

end Sound

end Steps

end Process

end Luwes.Sahl
