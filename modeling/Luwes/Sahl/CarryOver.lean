import Luwes.Sahl.ProcessSteps

/-!
# The pools carry nothing over

A request that is given used objects behaves as one that is given new ones.  The two runs that are
compared are a run of the process and the run that is left of it when the request is alone and every
object is new (`Label.alone`).  `Same` relates them, with the addresses forgotten: a step of the request
is answered by the same step on new objects (`Same.step`), and a step of another request is not
answered (`Same.other`), because it reaches neither the objects of the request nor its handle
(`Spares`).

Where the request takes its objects, `Same` holds after the step whatever was in them before it; that
`newSahlFilter`, `Request.reset` and `Writer.reset` with `OnDestroy` cover every field is used there and
nowhere else.
-/

namespace Luwes.Sahl

open LabelledRun

namespace Process

/-! ## The other requests -/

section Others

variable {p p' : Process} {i j : ℕ} {x : Instance} {c : Configured}

lemma callsOn_append {es : List (ℕ × HandleEvent)} (h : p'.log = p.log ++ es) (i : ℕ) :
    p'.callsOn i = p.callsOn i ++ (es.filter (·.1 = i)).map (·.2) := by
  simp [callsOn, h]

lemma callsOn_of_ne {es : List (ℕ × HandleEvent)} (h : p'.log = p.log ++ es)
    (hes : ∀ e ∈ es, e.1 = j) (hj : j ≠ i) : p'.callsOn i = p.callsOn i := by
  have hnil : es.filter (fun e => decide (e.1 = i)) = [] := by
    rw [List.filter_eq_nil_iff]
    intro e he
    simp [hes e he, hj]
  rw [callsOn_append h, hnil]
  simp

/-- The step leaves request `i` alone. -/
structure Spares (p p' : Process) (i : ℕ) : Prop where
  factories : p'.factories = p.factories
  instances : p'.instances i = p.instances i
  request : ∀ x c, p.Live i x c → p'.requestOf i = p.requestOf i
  calls : p'.callsOn i = p.callsOn i

lemma requestOf_congr (hx : p.Live i x c) (hinst : p'.instances i = p.instances i)
    (h : ∀ a, x.req = some a → p'.requests.read a = p.requests.read a) :
    p'.requestOf i = p.requestOf i := by
  simp only [requestOf, hinst, hx.inst, Option.bind_some]
  cases ha : x.req with
  | none => rfl
  | some a => exact h a ha

lemma spares_commit (hx : p.Live j x c) {l : State.Label} {s' : State}
    (h : x.rest.step l = some s') (hj : j ≠ i) :
    Spares p (p.commit j x (x.object j c.factory.name) x.rest s') i where
  factories := rfl
  instances := Function.update_of_ne hj.symm _ _
  request _ _ hy := requestOf_congr hy (Function.update_of_ne hj.symm _ _) fun _ _ => rfl
  calls := callsOn_of_ne rfl (hx.reached.own_calls hx.live h rfl) hj

lemma spares_looked (hp : p.Sound) (hx : p.Live j x c) {q : ℕ} (hq : x.req = some q) (r : Request)
    (x' : Instance) (rd : Read) (hj : j ≠ i) : Spares p (p.looked j x x' q r rd) i where
  factories := rfl
  instances := Function.update_of_ne hj.symm _ _
  request _ _ hy := requestOf_congr hy (Function.update_of_ne hj.symm _ _) fun _ ha =>
    ObjectPool.read_write_ne (hp.req_ne hx hy hj.symm hq ha) _
  calls := rfl

lemma Spares.trans {p'' : Process} (h : Spares p p' i) (h' : Spares p' p'' i)
    (hlive : ∀ x c, p.Live i x c → ∃ d, p'.Live i x d) : Spares p p'' i where
  factories := h'.factories.trans h.factories
  instances := h'.instances.trans h.instances
  request x c hx := by
    obtain ⟨d, hd⟩ := hlive x c hx
    exact (h'.request x d hd).trans (h.request x c hx)
  calls := h'.calls.trans h.calls

lemma spares_acquired (hp : p.Sound) (hx : p.Live j x c) {eos : Bool} {h : HeaderMap}
    {reqChoice : Option ℕ} {q : ℕ × ObjectPool Request} {r : Request} {a : ℕ × ObjectPool Writer}
    {s' : State} (hq : p.requests.get {} reqChoice = some q)
    (hstep : x.rest.step (.requestHeaders eos) = some s') (hj : j ≠ i) :
    Spares p (p.acquired j x c.factory.name h q r a s') i where
  factories := rfl
  instances := Function.update_of_ne hj.symm _ _
  request y d hy := by
    refine requestOf_congr hy (Function.update_of_ne hj.symm _ _) fun b hb => ?_
    obtain ⟨howned, -⟩ := hp.requests.get (i := j) hq
    have hheld : held p.instances Instance.req i = some b := (hy.held Instance.req).trans hb
    have hne : b ≠ q.1 :=
      howned.ne (Function.update_self _ _ _) ((Function.update_of_ne hj.symm _ _).trans hheld)
        hj.symm
    obtain ⟨r', hr'⟩ := hp.requests.exists_read hheld
    rw [hr']
    exact (ObjectPool.read_write_ne hne _).trans (ObjectPool.read_get hq hr')
  calls := by
    refine callsOn_of_ne (List.append_assoc _ _ _) (fun e he => ?_) hj
    rcases List.mem_append.mp he with he | he
    · rw [List.mem_singleton.mp he]
    · exact hx.reached.own_calls hx.live hstep rfl e he

lemma spares_released (hx : p.Live j x c) {s' : State} (h : x.rest.step .destroy = some s')
    (hj : j ≠ i) : Spares p (p.released j x c.factory.name s') i where
  factories := rfl
  instances := Function.update_of_ne hj.symm _ _
  request _ _ hy := by
    refine requestOf_congr hy (Function.update_of_ne hj.symm _ _) fun b _ => ?_
    simp only [Process.released, Process.commit]
    cases x.req <;> rfl
  calls := callsOn_of_ne rfl (hx.reached.own_calls hx.live h rfl) hj

end Others

/-! ## Two runs -/

/-- The step is one of request `i`, or the creation of a factory. -/
def Label.isOf (i : ℕ) : Label → Bool
  | .configure _ _ => true
  | .create j _ _ | .requestHeaders j _ _ _ _ | .act j _ | .read j _ _ _ | .destroy j => j = i

/-- The same step on new objects. -/
def Label.fresh : Label → Label
  | .create i k _ => .create i k none
  | .requestHeaders i endOfStream headers _ _ => .requestHeaders i endOfStream headers none none
  | l => l

/-- What is left of the step when request `i` is alone and all its objects are new. -/
def Label.alone (i : ℕ) (l : Label) : List Label := if l.isOf i then [l.fresh] else []

/-- Request `i` is the same in the two processes, but for the addresses of its objects. -/
structure Same (p q : Process) (i : ℕ) : Prop where
  factories : q.factories = p.factories
  instances : (q.instances i).map Instance.forget = (p.instances i).map Instance.forget
  request : ∀ x c, p.Live i x c → q.requestOf i = p.requestOf i
  calls : q.callsOn i = p.callsOn i

lemma same_new (i : ℕ) : Same {} {} i where
  factories := rfl
  instances := rfl
  request _ _ _ := rfl
  calls := rfl

section Two

variable {p p' q q' : Process} {i : ℕ} {x y : Instance} {c : Configured}

lemma forget_eq (h : y.forget = x.forget) : y.rest = x.rest ∧ y.reads = x.reads ∧
    y.factory = x.factory ∧ y.writer.isSome = x.writer.isSome ∧ y.req.isSome = x.req.isSome := by
  simp only [Instance.forget, Instance.mk.injEq, true_and] at h
  obtain ⟨hfactory, hwriter, hreq, hrest, hreads⟩ := h
  refine ⟨hrest, hreads, hfactory, ?_, ?_⟩
  · simpa using congrArg Option.isSome hwriter
  · simpa using congrArg Option.isSome hreq

/-- What does not look at addresses is the same. -/
lemma Same.map_eq {β : Type*} (hs : Same p q i) {f : Instance → β} (hf : ∀ x, f x.forget = f x) :
    (q.instances i).map f = (p.instances i).map f := by
  have hmap := congrArg (Option.map f) hs.instances
  simpa only [Option.map_map, Function.comp_def, hf] using hmap

lemma Same.live (hs : Same p q i) (hq : q.Sound) (hx : p.Live i x c) :
    ∃ y, q.Live i y c ∧ y.forget = x.forget := by
  have hmap := hs.instances
  rw [hx.inst] at hmap
  obtain ⟨y, hy, hforget⟩ := Option.map_eq_some_iff.mp hmap
  obtain ⟨hrest, -, hfactory, -⟩ := forget_eq hforget
  obtain ⟨d, hd⟩ := hq.live hy (hrest ▸ hx.live)
  have hdc : d = c := by
    have hfac := hd.factory
    rw [hs.factories, hfactory, hx.factory] at hfac
    exact (Option.some.inj hfac).symm
  exact ⟨y, hdc ▸ hd, hforget⟩

lemma Same.spares (hs : Same p q i) (h : Spares p p' i)
    (hlive : ∀ x c, p'.Live i x c → ∃ d, p.Live i x d) : Same p' q i where
  factories := hs.factories.trans h.factories.symm
  instances := by rw [h.instances, hs.instances]
  request x c hx := by
    obtain ⟨d, hd⟩ := hlive x c hx
    exact (hs.request x d hd).trans (h.request x d hd).symm
  calls := hs.calls.trans h.calls.symm

lemma Same.update {l : List (ℕ × HandleEvent)} {u v : Instance} (hs : Same p q i)
    (hforget : v.forget = u.forget) (hpf : p'.factories = p.factories)
    (hqf : q'.factories = q.factories)
    (hpi : p'.instances = Function.update p.instances i (some u))
    (hqi : q'.instances = Function.update q.instances i (some v))
    (hreq : u.rest.destroyed = false → q'.requestOf i = p'.requestOf i)
    (hpl : p'.log = p.log ++ l) (hql : q'.log = q.log ++ l) : Same p' q' i where
  factories := by rw [hpf, hqf, hs.factories]
  instances := by simp [hpi, hqi, hforget]
  request x c hx := by
    obtain rfl : u = x := by
      have := hx.inst
      simpa [hpi] using this
    exact hreq hx.live
  calls := by rw [callsOn_append hpl, callsOn_append hql, hs.calls]

lemma logged_congr {f g : SahlFilter} (h : f.handle = g.handle) (s s' : State) :
    logged f s s' = logged g s s' := by
  have hcall : callHandle f s'.writer = callHandle g s'.writer := by
    funext call
    cases call <;> simp [callHandle, h]
  simp [logged, hcall]

lemma exists_get_new {α : Type*} (pool : ObjectPool α) (new : α) :
    ∃ r, pool.get new none = some r ∧ r.2.read r.1 = some new :=
  ⟨_, rfl, by simp [ObjectPool.read]⟩

/-- **Request.reset overwrites the whole object.** -/
lemma reset_request (r r' : Request) (headers : HeaderMap) (i : ℕ) (name : GoString) :
    r.reset headers i name = r'.reset headers i name := rfl

lemma Same.commit (hs : Same p q i) (hx : p.Live i x c) (hy : q.Live i y c)
    (hforget : y.forget = x.forget) (s' : State) :
    Same (p.commit i x (x.object i c.factory.name) x.rest s')
      (q.commit i y (y.object i c.factory.name) y.rest s') i := by
  obtain ⟨hrest, -⟩ := forget_eq hforget
  refine hs.update (u := { x with rest := s' }) (v := { y with rest := s' }) ?_ rfl rfl rfl rfl
    (fun _ => ?_) rfl ?_
  · show { y.forget with rest := s' } = { x.forget with rest := s' }
    rw [hforget]
  · have hold := hs.request x c hx
    simp only [requestOf, hx.inst, hy.inst, Option.bind_some] at hold
    simpa [requestOf, Process.commit] using hold
  · simp only [Process.commit, hrest]
    exact congrArg (q.log ++ ·) (logged_congr rfl _ _)

lemma Same.looked (hs : Same p q i) (hforget : y.forget = x.forget) {a b : ℕ} {r : Request}
    (ha : x.req = some a) (hb : y.req = some b) (hpa : p.requests.read a = some r)
    (hqb : q.requests.read b = some r) (t : Thread) (rd : Read) (answer : ℕ) :
    Same (p.looked i x (x.saw r t rd answer) a r rd)
      (q.looked i y (y.saw r t rd answer) b r rd) i := by
  obtain ⟨hrest, -⟩ := forget_eq hforget
  refine hs.update (l := []) (u := x.saw r t rd answer) (v := y.saw r t rd answer) ?_ rfl rfl
    rfl rfl (fun _ => ?_) (List.append_nil _).symm (List.append_nil _).symm
  · exact congrArg (Instance.saw · r t rd answer) hforget
  · simp [requestOf, Process.looked, Instance.saw, ha, hb, hrest,
      ObjectPool.read_write_self hpa, ObjectPool.read_write_self hqb]

/-- `OnRequestHeaders` sees nothing of the objects it is given. -/
lemma Same.acquired (hs : Same p q i) (c : Configured)
    (hforget : y.forget = x.forget) {headers : HeaderMap} {pr qr : ℕ × ObjectPool Request}
    {r r' : Request} (hpr : pr.2.read pr.1 = some r) (hqr : qr.2.read qr.1 = some r')
    (pw qw : ℕ × ObjectPool Writer) (s' : State) :
    Same (p.acquired i x c.factory.name headers pr r pw s')
      (q.acquired i y c.factory.name headers qr r' qw s') i := by
  obtain ⟨hrest, -⟩ := forget_eq hforget
  refine hs.update (u := { x with req := some pr.1, writer := some pw.1, rest := s' })
    (v := { y with req := some qr.1, writer := some qw.1, rest := s' }) ?_ rfl rfl rfl rfl
    (fun _ => ?_) (List.append_assoc _ _ _) ?_
  · show { y.forget with req := some 0, writer := some 0, rest := s' } =
      { x.forget with req := some 0, writer := some 0, rest := s' }
    rw [hforget]
  · simp [requestOf, Process.acquired, ObjectPool.read_write_self hpr,
      ObjectPool.read_write_self hqr, reset_request r' r]
  · simp only [Process.acquired, hrest, List.append_assoc]
    exact congrArg (fun es => q.log ++ ([(i, HandleEvent.getScheduler)] ++ es))
      (logged_congr rfl _ _)

lemma Same.released (hs : Same p q i) (hforget : y.forget = x.forget) {s' : State}
    (h : x.rest.step .destroy = some s') (name : GoString) :
    Same (p.released i x name s') (q.released i y name s') i := by
  obtain ⟨hrest, -⟩ := forget_eq hforget
  obtain ⟨-, hd, -⟩ := State.destroy_step h
  refine hs.update (u := { x with rest := s' }) (v := { y with rest := s' }) ?_ rfl rfl rfl rfl
    (fun hlive => ?_) rfl ?_
  · show { y.forget with rest := s' } = { x.forget with rest := s' }
    rw [hforget]
  · simp [hd] at hlive
  · simp only [Process.released, Process.commit, hrest]
    exact congrArg (q.log ++ ·) (logged_congr rfl _ _)

lemma Same.created (hs : Same p q i) (k : ℕ) (factory : FilterFactory)
    (r r' : ℕ × ObjectPool SahlFilter) :
    Same (p.created i k factory r) (q.created i k factory r') i := by
  refine hs.update (l := [])
    (u := { factory := k, filter := r.1, rest := State.new i factory.filterDef })
    (v := { factory := k, filter := r'.1, rest := State.new i factory.filterDef }) rfl rfl rfl rfl
    rfl (fun _ => ?_) (List.append_nil _).symm (List.append_nil _).symm
  simp [requestOf, Process.created]

/-- **A step of request `i` is answered alone, on new objects.** -/
theorem Same.step (hs : Same p q i) (hp : p.Sound) (hq : q.Sound) {l : Label} (hl : l.isOf i = true)
    (h : p.Moves l p') : ∃ q', q.Moves l.fresh q' ∧ Same p' q' i := by
  cases h with
  | configured config call factory hcreate =>
      refine ⟨_, .configured config call factory hcreate, ?_⟩
      refine ⟨by rw [hs.factories], hs.instances, fun x c hx => ?_, hs.calls⟩
      obtain ⟨d, hd⟩ := hp.live hx.inst hx.live
      exact hs.request x d hd
  | notConfigured config call hok hpanics => exact ⟨q, .notConfigured config call hok hpanics, hs⟩
  | created j k choice c r hi hc hget =>
      obtain rfl : j = i := by simpa [Label.isOf] using hl
      obtain ⟨r', hget', -⟩ := exists_get_new q.filters {}
      have hmap := hs.instances
      rw [hi, Option.map_none, Option.map_eq_none_iff] at hmap
      exact ⟨_, .created j k none c r' hmap (hs.factories ▸ hc) hget', hs.created k c.factory r r'⟩
  | acquired j eos headers reqChoice writerChoice x c r₁ r w s' hx hreq hr hw h =>
      obtain rfl : j = i := by simpa [Label.isOf] using hl
      obtain ⟨y, hy, hforget⟩ := hs.live hq hx
      obtain ⟨r₂, hreq', hr'⟩ := exists_get_new q.requests {}
      obtain ⟨w', hw', -⟩ := exists_get_new q.writers Writer.zero
      obtain ⟨hrest, -⟩ := forget_eq hforget
      exact ⟨_, .acquired j eos headers none none y c r₂ {} w' s' hy hreq' hr' hw' (hrest ▸ h),
        hs.acquired c hforget hr hr' w w' s'⟩
  | acted j l x c s' hx hl' h =>
      obtain rfl : j = i := by simpa [Label.isOf] using hl
      obtain ⟨y, hy, hforget⟩ := hs.live hq hx
      obtain ⟨hrest, -⟩ := forget_eq hforget
      exact ⟨_, .acted j l y c s' hy hl' (hrest ▸ h), hs.commit hx hy hforget s'⟩
  | read j t rd answer x c a r s' hx ha hr hobs h =>
      obtain rfl : j = i := by simpa [Label.isOf] using hl
      obtain ⟨y, hy, hforget⟩ := hs.live hq hx
      obtain ⟨hrest, -, -, -, hreq⟩ := forget_eq hforget
      obtain ⟨b, hb⟩ := Option.isSome_iff_exists.mp (hreq.trans (ha ▸ rfl))
      have hr' : q.requests.read b = some r := by
        have hsame := hs.request x c hx
        simpa [requestOf, hx.inst, hy.inst, ha, hb, hr] using hsame
      refine ⟨_, .read j t rd answer y c b r s' hy hb hr' (hrest ▸ hobs) (hrest ▸ h), ?_⟩
      exact (hs.looked hforget ha hb hr hr' t rd answer).commit (hx.looked a r t rd answer)
        (hy.looked b r t rd answer) (congrArg (Instance.saw · r t rd answer) hforget) s'
  | released j x c s' hx h =>
      obtain rfl : j = i := by simpa [Label.isOf] using hl
      obtain ⟨y, hy, hforget⟩ := hs.live hq hx
      obtain ⟨hrest, -⟩ := forget_eq hforget
      exact ⟨_, .released j y c s' hy (hrest ▸ h), hs.released hforget h _⟩

/-- **A step of another request is not answered.** -/
theorem Same.other (hs : Same p q i) (hp : p.Sound) {l : Label} (hl : l.isOf i = false)
    (h : p.Moves l p') : Same p' q i := by
  have hback : ∀ {p₁ : Process}, p₁.instances i = p.instances i →
      ∀ x c, p₁.Live i x c → ∃ d, p.Live i x d := fun hinst x c hx =>
    hp.live (hinst ▸ hx.inst) hx.live
  cases h with
  | configured | notConfigured => simp [Label.isOf] at hl
  | created j k choice c r hi hc hget =>
      have hj : j ≠ i := by simpa [Label.isOf] using hl
      have hinst : (p.created j k c.factory r).instances i = p.instances i :=
        Function.update_of_ne hj.symm _ _
      refine hs.spares ⟨rfl, hinst, fun x d hx => ?_, rfl⟩ (hback hinst)
      exact requestOf_congr hx hinst fun _ _ => rfl
  | acquired j eos headers reqChoice writerChoice x c r₁ r w s' hx hreq hr hw h =>
      have hj : j ≠ i := by simpa [Label.isOf] using hl
      have hspares := spares_acquired (r := r) (a := w) (h := headers) hp hx hreq h hj
      exact hs.spares hspares (hback hspares.instances)
  | acted j l x c s' hx hl' h =>
      have hj : j ≠ i := by simpa [Label.isOf] using hl
      have hspares := spares_commit hx h hj
      exact hs.spares hspares (hback hspares.instances)
  | read j t rd answer x c a r s' hx ha hr hobs h =>
      have hj : j ≠ i := by simpa [Label.isOf] using hl
      have hlooked := spares_looked hp hx ha r (x.saw r t rd answer) rd hj
      have hcommit := spares_commit (hx.looked a r t rd answer) h hj
      have hspares := hlooked.trans hcommit fun y d hy =>
        (hp.looked hx a r t rd answer).live (hlooked.instances.trans hy.inst) hy.live
      exact hs.spares hspares (hback hspares.instances)
  | released j x c s' hx h =>
      have hj : j ≠ i := by simpa [Label.isOf] using hl
      have hspares := spares_released hx h hj
      exact hs.spares hspares (hback hspares.instances)

/-! ## The result -/

/-- What there is to see of a request: what has happened in it, with every status that it has returned;
what its code has read; and the calls that have reached its handle. -/
structure Seen where
  trace : List Obs
  reads : List ReadEntry
  calls : List HandleEvent

/-- What there is to see of request `i`. -/
def seen (p : Process) (i : ℕ) : Seen where
  trace := ((p.instances i).map (·.rest.trace)).getD []
  reads := ((p.instances i).map (·.reads)).getD []
  calls := p.callsOn i

/-- Request `i` has been created and is not destroyed. -/
def isLive (p : Process) (i : ℕ) : Bool := (p.instances i).any fun x => !x.rest.destroyed

/-- Request `i`, which has used objects in `p`, is as it is in `q`, where its objects are new. -/
structure AsFresh (p q : Process) (i : ℕ) : Prop where
  seen : p.seen i = q.seen i
  /-- Its objects, and everything else it goes on from, are the same. -/
  state : p.isLive i = true → p.stateOf i = q.stateOf i ∧ p.requestOf i = q.requestOf i
  /-- It can take the same steps. -/
  enabled : ∀ l : Label, l.isOf i = true → p.beforeDestroy l = true →
    (p.step l.fresh).isSome = (q.step l.fresh).isSome

/-- Request `i` runs the handler of its own configuration: what the factory call has returned, where
there is one. -/
def RunsOwn (p : Process) (i : ℕ) : Prop :=
  ∀ x s, p.instances i = some x → p.isLive i = true → p.stateOf i = some s →
    ∃ c, p.factories[x.factory]? = some c ∧ s.filterDef = c.factory.filterDef ∧
      some s.filterDef.handler =
        if c.config.filterDef.factoryFn then c.call.handler else c.config.filterDef.handler

lemma exists_of_isLive (hp : p.Sound) (hlive : p.isLive i = true) : ∃ x c, p.Live i x c := by
  unfold isLive at hlive
  cases hx : p.instances i with
  | none => simp [hx] at hlive
  | some x =>
      obtain ⟨c, hc⟩ := hp.live hx (by simpa [hx] using hlive)
      exact ⟨x, c, hc⟩

/-- A factory that has been made has the handler of its configuration. -/
lemma create_handler {config : ConfigFactory} {call : FactoryCall} {factory : FilterFactory}
    (h : config.create call = .ok factory) :
    some factory.filterDef.handler =
      if config.filterDef.factoryFn then call.handler else config.filterDef.handler := by
  have hbuild : ∀ fn, config.build fn = .ok factory → some factory.filterDef.handler = fn := by
    rintro (_ | fn) hfn
    · cases hfn
    · cases hfn
      rfl
  unfold ConfigFactory.create at h
  split_ifs at h ⊢
  · split at h
    · cases h
    · cases h
    · rename_i hcall
      rw [hcall]
      exact hbuild _ h
  · split at h
    · cases h
    · exact hbuild _ h
  · exact hbuild _ h

lemma Same.symm (hs : Same p q i) (hp : p.Sound) : Same q p i where
  factories := hs.factories.symm
  instances := hs.instances.symm
  request y c hy := by
    have hmap := hs.instances
    rw [hy.inst] at hmap
    obtain ⟨x, hx, hforget⟩ := Option.map_eq_some_iff.mp hmap.symm
    obtain ⟨d, hd⟩ := hp.live hx ((forget_eq hforget).1 ▸ hy.live)
    exact (hs.request x d hd).symm
  calls := hs.calls.symm

lemma Same.beforeDestroy_iff (hs : Same p q i) {l : Label} (hl : l.isOf i = true) :
    q.beforeDestroy l = p.beforeDestroy l := by
  have hall : (q.instances i).all (fun x => !x.rest.destroyed) =
      (p.instances i).all fun x => !x.rest.destroyed := by
    have hmap := hs.map_eq (f := fun x => !x.rest.destroyed) fun _ => rfl
    revert hmap
    cases q.instances i <;> cases p.instances i <;> simp
  cases l with
  | act j l =>
      obtain rfl : j = i := by simpa [Label.isOf] using hl
      cases l <;> first | rfl | exact hall
  | read j t rd answer =>
      obtain rfl : j = i := by simpa [Label.isOf] using hl
      cases t <;> first | rfl | exact hall
  | _ => rfl

lemma isOf_fresh (l : Label) (i : ℕ) : l.fresh.isOf i = l.isOf i := by
  cases l <;> rfl

lemma fresh_fresh (l : Label) : l.fresh.fresh = l.fresh := by
  cases l <;> rfl

lemma beforeDestroy_fresh (p : Process) (l : Label) :
    p.beforeDestroy l.fresh = p.beforeDestroy l := by
  cases l <;> rfl

/-- What one of the two can do, so can the other. -/
lemma Same.enabled (hs : Same p q i) (hp : p.Sound) (hq : q.Sound) {l : Label}
    (hl : l.isOf i = true) (hlate : p.beforeDestroy l = true)
    (h : (p.step l.fresh).isSome = true) : (q.step l.fresh).isSome = true := by
  obtain ⟨p', hp'⟩ := Option.isSome_iff_exists.mp h
  have hmoves := hp.moves ((beforeDestroy_fresh p l).trans hlate) hp'
  obtain ⟨q', hq', -⟩ := hs.step hp hq ((isOf_fresh l i).trans hl) hmoves
  rw [fresh_fresh] at hq'
  rw [hq'.step hq]
  rfl

lemma Same.asFresh (hs : Same p q i) (hp : p.Sound) (hq : q.Sound) : AsFresh p q i where
  seen := by
    have htrace := hs.map_eq (f := fun x => x.rest.trace) fun _ => rfl
    have hreads := hs.map_eq (f := Instance.reads) fun _ => rfl
    simp only [Process.seen, htrace, hreads, hs.calls]
  state hlive := by
    obtain ⟨x, c, hx⟩ := exists_of_isLive hp hlive
    obtain ⟨y, hy, hforget⟩ := hs.live hq hx
    rw [hx.stateOf, hy.stateOf, (forget_eq hforget).1]
    exact ⟨rfl, (hs.request x c hx).symm⟩
  enabled l hl hlate := by
    rw [Bool.eq_iff_iff]
    constructor
    · exact hs.enabled hp hq hl hlate
    · exact (hs.symm hp).enabled hq hp hl ((hs.beforeDestroy_iff hl).trans hlate)

lemma Sound.runsOwn (hp : p.Sound) (i : ℕ) : p.RunsOwn i := by
  intro x s hx hlive hs
  obtain ⟨x', c, hx'⟩ := exists_of_isLive hp hlive
  obtain rfl : x' = x := Option.some.inj (hx'.inst.symm.trans hx)
  obtain rfl : x'.rest = s := Option.some.inj (hx'.stateOf.symm.trans hs)
  have hdef := hx'.reached.filterDef
  refine ⟨c, hx'.factory, hdef, ?_⟩
  rw [hdef]
  exact create_handler (hp.configured c (List.mem_of_getElem? hx'.factory))

end Two

lemma sound_run {ls : List Label} {p : Process}
    (hlate : Along step (fun p l => p.beforeDestroy l = true) {} ls)
    (hrun : run step {} ls = some p) : p.Sound :=
  run_invariant_of_along (I := Sound) (fun _ _ _ hp hC h => hp.step (hp.moves hC h)) sound_new hlate
    hrun

/-- **Every request of the process is a single request**: while it lives, what is in its objects is a
state that a run from `newSahlFilter` leads to, with the definition of its own factory. -/
theorem stateOf_reached {ls : List Label} {p : Process}
    (hlate : Along step (fun p l => p.beforeDestroy l = true) {} ls)
    (hrun : run step {} ls = some p) {i : ℕ} (hlive : p.isLive i = true) :
    ∃ c ∈ p.factories, ∃ s, p.stateOf i = some s ∧ Reached i c.factory.filterDef s := by
  obtain ⟨x, c, hx⟩ := exists_of_isLive (sound_run hlate hrun) hlive
  exact ⟨c, List.mem_of_getElem? hx.factory, x.rest, hx.stateOf, hx.reached⟩

/-- **The pools carry nothing over.**  In every run in which no goroutine goes on after the `OnDestroy`
of its own request, `newSahlFilter` does not panic, and each request, whatever objects it was given,
is as it is alone on new objects; it runs the handler of its own configuration. -/
theorem carriesNothingOver (ls : List Label) (p : Process)
    (hlate : Along step (fun p l => p.beforeDestroy l = true) {} ls)
    (hrun : run step {} ls = some p) (i : ℕ) :
    p.panicked = false ∧ (∃ q, run step {} (ls.flatMap (Label.alone i)) = some q ∧ AsFresh p q i) ∧
      p.RunsOwn i := by
  have hstep : ∀ p q l p', p.Sound ∧ q.Sound ∧ Same p q i → p.beforeDestroy l = true →
      p.step l = some p' →
      ∃ q', run step q (l.alone i) = some q' ∧ p'.Sound ∧ q'.Sound ∧ Same p' q' i := by
    rintro p q l p' ⟨hp, hq, hs⟩ hlate h
    have hmoves := hp.moves hlate h
    cases hl : l.isOf i with
    | true =>
        obtain ⟨q', hq', hs'⟩ := hs.step hp hq hl hmoves
        refine ⟨q', ?_, hp.step hmoves, hq.step hq', hs'⟩
        simp [Label.alone, hl, run, hq'.step hq]
    | false =>
        exact ⟨q, by simp [Label.alone, hl], hp.step hmoves, hq, hs.other hp hl hmoves⟩
  obtain ⟨q, hq, hsound, hqsound, hs⟩ := run_simulation hstep
    ⟨sound_new, sound_new, same_new i⟩ hlate hrun
  exact ⟨hsound.alive, ⟨q, hq, hs.asFresh hsound hqsound⟩, hsound.runsOwn i⟩

/-- The headers of a request by this user. -/
def userHeaders (user : String) : HeaderMap where
  getOneInto key := if key = ascii "x-user" then some ⟨some (ascii user)⟩ else none

/-- A handler that reads a header, queues a mutation and rejects the request. -/
def rejectUser : HandlerFunc :=
  .observe fun _ => .call (.setRequestHeader (ascii "x-seen") (ascii "1")) <|
    .call (.send 403 (ascii "no")) .ret

/-- Two filters: one whose observer keeps a value for the response, one that is made by a factory. -/
def twoFilters : List Label :=
  [.configure
      { name := ascii "auth"
        filterDef :=
          { handler := some rejectUser, responseFn := some fun _ => .call (.setContext 7) .ret } } {},
    .configure { name := ascii "audit", filterDef := { factoryFn := true } }
      { handler := some (.observe fun _ => .ret) }]

/-- A request of the first filter that leaves something in every object. -/
def leavesMuch : List Label :=
  [.create 0 0 none, .requestHeaders 0 false (userHeaders "alice") none none,
    .read 0 .worker (.headerGet (ascii "X-User")) 3, .act 0 (.worker {}), .act 0 (.worker {}),
    .act 0 (.worker {}), .act 0 (.localReply ⟨some (ascii "timeout")⟩),
    .act 0 (.responseHeaders (userHeaders "alice")), .act 0 (.worker {}), .act 0 (.worker {}),
    .act 0 .streamComplete, .destroy 0]

/-- A request of the other filter, with the same objects. -/
def reusesThem : List Label :=
  [.create 1 1 (some 0), .requestHeaders 1 false (userHeaders "bob") (some 0) (some 0),
    .read 1 .worker (.headerPeek (ascii "x-user")) 0, .act 1 (.worker {})]

/-- The process after both. -/
def reusedObjects : Process := (run step {} (twoFilters ++ leavesMuch ++ reusesThem)).getD {}

theorem carriesNothingOver_reused :
    (reusedObjects.instances 1).map (fun x => (x.filter, x.writer, x.req)) =
        (reusedObjects.instances 0).map (fun x => (x.filter, x.writer, x.req)) ∧
      (reusedObjects.seen 1).reads = [⟨.worker, .headerPeek (ascii "x-user"), some (ascii "bob"), 0⟩] ∧
      reusedObjects.panicked = false ∧
      (∃ q, run step {} ((twoFilters ++ leavesMuch ++ reusesThem).flatMap (Label.alone 1)) = some q ∧
        AsFresh reusedObjects q 1) ∧
      reusedObjects.RunsOwn 1 :=
  ⟨by decide, by decide,
    carriesNothingOver (twoFilters ++ leavesMuch ++ reusesThem) reusedObjects (by decide) rfl 1⟩

end Process

end Luwes.Sahl
