import Luwes.Sahl.Pool

/-!
# Isolation of the pooled objects

As long as no goroutine makes a call after the `OnDestroy` of its own request, every pointer in use
is the one its request holds: the request is live, so its objects are not in the pools and no other
request has them.  `Inv` is that invariant.  Everything queued in a Writer is then its request's, and
everything that reaches a handle was queued by the request of that handle.

A late call breaks all of it, because `OnDestroy` has given the objects to the next request.
-/

namespace Luwes.Sahl

open LabelledRun

namespace Pool

/-- The step is no call of a goroutine whose own request has been destroyed. -/
def beforeDestroy (p : Pool) : Label → Bool
  | .goroutine i _ => (p.goroutines[i]?).all fun g => !(p.filters g.owner).destroyed
  | _ => true

/-! ## The invariant -/

/-- Every object in use is held by the request whose code uses it. -/
structure Inv (p : Pool) : Prop where
  writers : p.writers.Owned fun r => (p.filters r).writer
  requests : p.requests.Owned fun r => (p.filters r).req
  fresh : ∀ r, (p.filters r).created = false → p.filters r = {}
  idle : ∀ r, (p.filters r).started = false ∨ (p.filters r).destroyed = true →
    (p.filters r).writer = none ∧ (p.filters r).req = none
  own : ∀ r a w, (p.filters r).writer = some a → p.writers.read a = some w → w.OwnedBy r
  goroutines : ∀ g ∈ p.goroutines, g.scheduler = g.owner ∧
    ((p.filters g.owner).destroyed = true ∨
      ((p.filters g.owner).writer = some g.writer ∧ (p.filters g.owner).req = some g.request))
  tasks : ∀ t ∈ p.tasks, t.scheduler = t.owner ∧ t.op.isMethod = false ∧
    ((p.filters t.owner).destroyed = true ∨ (p.filters t.owner).writer = some t.writer)
  log : ∀ c ∈ p.log, c.Own

lemma inv_empty : Inv {} where
  writers := ObjectPool.owned_empty
  requests := ObjectPool.owned_empty
  fresh := by simp
  idle := by simp
  own := by simp
  goroutines := by simp
  tasks := by simp
  log := by simp

lemma own_of_ownedBy {r : ℕ} {w : Writer} {id : CallId} (hw : w.OwnedBy r) (hid : id.request = r)
    (op : WriterOp) : ∀ c ∈ (w.apply id op).2.map (⟨w.handle, r, ·⟩), PoolCall.Own c := by
  intro c hc
  obtain ⟨d, hd, rfl⟩ := List.mem_map.mp hc
  exact ⟨fun _ => hw.handle.symm, fun i hi => ((hw.apply hid op).2 d hd i hi).trans hw.handle.symm⟩

/-! ## A call through a request's own pointers -/

section Perform

variable {p p' : Pool} {r a q : ℕ} {c : ClientOp}

lemma perform_frame (h : p.perform r a q c = some p') :
    p'.filters = p.filters ∧ (∀ b, b ≠ a → p'.writers.read b = p.writers.read b) ∧
      ∀ b, b ≠ q → p'.requests.read b = p.requests.read b := by
  cases c with
  | writer op =>
      obtain ⟨w, -, rfl⟩ := Option.map_eq_some_iff.mp h
      exact ⟨rfl, fun b hb => ObjectPool.read_write_ne hb _, fun _ _ => rfl⟩
  | doCallout req =>
      obtain ⟨w, -, rfl⟩ := Option.map_eq_some_iff.mp h
      split_ifs <;> exact ⟨rfl, fun _ _ => rfl, fun _ _ => rfl⟩
  | headerGet key =>
      obtain ⟨x, -, rfl⟩ := Option.map_eq_some_iff.mp h
      exact ⟨rfl, fun _ _ => rfl, fun b hb => ObjectPool.read_write_ne hb _⟩

lemma mem_spawned {w : Writer} {op : WriterOp} {g : Goroutine} (h : g ∈ spawned w r a q op) :
    g = ⟨r, w.scheduler, a, q⟩ := by
  cases op <;> simp only [spawned] at h
  case go =>
    split_ifs at h
    · simp at h
    · simpa using h
  all_goals simp at h

lemma inv_perform (hI : p.Inv) (ha : (p.filters r).writer = some a)
    (hq : (p.filters r).req = some q) (h : p.perform r a q c = some p') : p'.Inv := by
  cases c with
  | writer op =>
      obtain ⟨w, hread, rfl⟩ := Option.map_eq_some_iff.mp h
      have hw : w.OwnedBy r := hI.own r a w ha hread
      exact
        { hI with
          writers := hI.writers.write _ _
          own := by
            intro r' a' w' ha' hread'
            by_cases heq : a' = a
            · subst heq
              obtain rfl := hI.writers.inj r' r a' ha' ha
              rw [ObjectPool.read_write_self hread] at hread'
              obtain rfl := Option.some.inj hread'
              exact (hw.apply rfl op).1
            · rw [ObjectPool.read_write_ne heq] at hread'
              exact hI.own r' a' w' ha' hread'
          goroutines := by
            intro g hg
            rcases List.mem_append.mp hg with hg | hg
            · exact hI.goroutines g hg
            · rw [mem_spawned hg]
              exact ⟨hw.scheduler, .inr ⟨ha, hq⟩⟩
          log := by
            intro c hc
            rcases List.mem_append.mp hc with hc | hc
            · exact hI.log c hc
            · exact own_of_ownedBy hw rfl op c hc }
  | doCallout req =>
      obtain ⟨w, hread, rfl⟩ := Option.map_eq_some_iff.mp h
      have hw : w.OwnedBy r := hI.own r a w ha hread
      split_ifs
      · exact
          { hI with
            tasks := by
              intro t ht
              rcases List.mem_append.mp ht with ht | ht
              · exact hI.tasks t ht
              · rw [List.mem_singleton.mp ht]
                exact ⟨hw.scheduler, rfl, .inr ha⟩ }
      · exact hI
  | headerGet key =>
      obtain ⟨x, -, rfl⟩ := Option.map_eq_some_iff.mp h
      exact { hI with requests := hI.requests.write _ _ }

end Perform

/-! ## The life of a request -/

section Life

variable {p p' : Pool} {r : ℕ}

lemma writer_update (fs : ℕ → PoolFilter) (f : PoolFilter) :
    (fun r' => (Function.update fs r f r').writer) =
      Function.update (fun r' => (fs r').writer) r f.writer :=
  Function.comp_update PoolFilter.writer fs r f

lemma req_update (fs : ℕ → PoolFilter) (f : PoolFilter) :
    (fun r' => (Function.update fs r f r').req) =
      Function.update (fun r' => (fs r').req) r f.req :=
  Function.comp_update PoolFilter.req fs r f

/-- Whoever may use the objects of a filter still may, when a filter changes that had no objects in use
or is destroyed now. -/
lemma use_update {f : PoolFilter} {U : PoolFilter → Prop} (hU : ∀ x, x.writer = none → ¬ U x)
    (hold : f.destroyed = true ∨
      ((p.filters r).destroyed = false ∧ (p.filters r).writer = none))
    {r' : ℕ} (huse : (p.filters r').destroyed = true ∨ U (p.filters r')) :
    (Function.update p.filters r f r').destroyed = true ∨ U (Function.update p.filters r f r') := by
  by_cases hr : r' = r
  · subst hr
    rw [Function.update_self]
    rcases hold with hdestroyed | ⟨hlive, hnone⟩
    · exact .inl hdestroyed
    · simp [hlive, hU _ hnone] at huse
  · rwa [Function.update_of_ne hr]

lemma inv_setFilter {f : PoolFilter} (hI : p.Inv)
    (hold : f.destroyed = true ∨
      ((p.filters r).destroyed = false ∧ (p.filters r).writer = none))
    (hfresh : f.created = false → f = {})
    (hidle : f.started = false ∨ f.destroyed = true → f.writer = none ∧ f.req = none) :
    (∀ r', (Function.update p.filters r f r').created = false →
        Function.update p.filters r f r' = {}) ∧
      (∀ r', (Function.update p.filters r f r').started = false ∨
          (Function.update p.filters r f r').destroyed = true →
        (Function.update p.filters r f r').writer = none ∧
          (Function.update p.filters r f r').req = none) ∧
      (∀ g ∈ p.goroutines, g.scheduler = g.owner ∧
        ((Function.update p.filters r f g.owner).destroyed = true ∨
          ((Function.update p.filters r f g.owner).writer = some g.writer ∧
            (Function.update p.filters r f g.owner).req = some g.request))) ∧
      ∀ t ∈ p.tasks, t.scheduler = t.owner ∧ t.op.isMethod = false ∧
        ((Function.update p.filters r f t.owner).destroyed = true ∨
          (Function.update p.filters r f t.owner).writer = some t.writer) := by
  refine ⟨?_, ?_, fun g hg => ?_, fun t ht => ?_⟩
  · exact (Function.forall_update_iff p.filters fun _ f => f.created = false → f = {}).mpr
      ⟨hfresh, fun r' _ => hI.fresh r'⟩
  · exact (Function.forall_update_iff p.filters fun _ f =>
        f.started = false ∨ f.destroyed = true → f.writer = none ∧ f.req = none).mpr
      ⟨hidle, fun r' _ => hI.idle r'⟩
  · obtain ⟨hsched, huse⟩ := hI.goroutines g hg
    exact ⟨hsched, use_update (U := fun f => f.writer = some g.writer ∧ f.req = some g.request)
      (fun x hx h => by simp [hx] at h) hold huse⟩
  · obtain ⟨hsched, hmethod, huse⟩ := hI.tasks t ht
    exact ⟨hsched, hmethod, use_update (U := fun f => f.writer = some t.writer)
      (fun x hx h => by simp [hx] at h) hold huse⟩

lemma inv_create (hI : p.Inv) (hcreated : (p.filters r).created = false) :
    (p.setFilter r { created := true }).Inv := by
  have hfresh := hI.fresh r hcreated
  obtain ⟨hnew, hidle, hgo, htasks⟩ := inv_setFilter (f := { created := true }) hI
    (.inr (by rw [hfresh]; exact ⟨rfl, rfl⟩)) (by simp) fun _ => ⟨rfl, rfl⟩
  exact
    { writers := by
        simp only [setFilter, writer_update]
        exact hI.writers.leave (by rw [hfresh])
      requests := by
        simp only [setFilter, req_update]
        exact hI.requests.leave (by rw [hfresh])
      fresh := hnew
      idle := hidle
      own := (Function.forall_update_iff p.filters fun r' f =>
          ∀ a w, f.writer = some a → p.writers.read a = some w → w.OwnedBy r').mpr
        ⟨by simp, fun r' _ => hI.own r'⟩
      goroutines := hgo
      tasks := htasks
      log := hI.log }

lemma inv_acquire {hm : HeaderMap} {name : GoString} {reqChoice writerChoice : Option ℕ}
    (hI : p.Inv) (hlive : p.live r = true) (hstarted : (p.filters r).started = false)
    (h : p.acquire r hm name reqChoice writerChoice = some p') : p'.Inv := by
  have hwriter := (hI.idle r (.inl hstarted)).1
  obtain ⟨hcreated, hdestroyed⟩ : (p.filters r).created = true ∧
      (p.filters r).destroyed = false := by simpa [live] using hlive
  obtain ⟨⟨q, requests⟩, hgetq, h⟩ := Option.bind_eq_some_iff.mp h
  obtain ⟨x, hx, h⟩ := Option.bind_eq_some_iff.mp h
  obtain ⟨⟨a, writers⟩, hgeta, h⟩ := Option.bind_eq_some_iff.mp h
  obtain ⟨w, hw, rfl⟩ := Option.map_eq_some_iff.mp h
  obtain ⟨hownq, -⟩ := hI.requests.get hgetq
  obtain ⟨howna, -⟩ := hI.writers.get hgeta
  set f : PoolFilter := { p.filters r with started := true, writer := some a, req := some q }
  obtain ⟨hnew, hidle, hgo, htasks⟩ := inv_setFilter (f := f) hI (.inr ⟨hdestroyed, hwriter⟩)
    (by simp [f, hcreated]) (by simp [f, hdestroyed])
  exact
    { writers := by
        simp only [setFilter, writer_update]
        exact howna.write _ _
      requests := by
        simp only [setFilter, req_update]
        exact hownq.write _ _
      fresh := hnew
      idle := hidle
      own := by
        refine (Function.forall_update_iff p.filters fun r' f =>
          ∀ a' w', f.writer = some a' → (writers.write a _).read a' = some w' →
            w'.OwnedBy r').mpr ⟨fun a' w' ha' hread => ?_, fun r' hr a' w' ha' hread => ?_⟩
        · obtain rfl : a = a' := Option.some.inj ha'
          rw [ObjectPool.read_write_self hw] at hread
          obtain rfl := Option.some.inj hread
          exact Writer.ownedBy_reset w r (some r)
        · have hne : a' ≠ a := howna.ne (by simp) (by simpa [hr] using ha') hr
          obtain ⟨w₀, hw₀⟩ := hI.writers.exists_read ha'
          rw [ObjectPool.read_write_ne hne, ObjectPool.read_get hgeta hw₀] at hread
          obtain rfl := Option.some.inj hread
          exact hI.own r' a' _ ha' hw₀
      goroutines := hgo
      tasks := htasks
      log := hI.log }

lemma inv_release (hI : p.Inv) (hlive : p.live r = true) : (p.release r).Inv := by
  set f : PoolFilter := { p.filters r with destroyed := true, writer := none, req := none }
  have hcreated : (p.filters r).created = true := by
    simp only [live, Bool.and_eq_true] at hlive
    exact hlive.1
  obtain ⟨hnew, hidle, hgo, htasks⟩ := inv_setFilter (r := r) (f := f) hI (.inl rfl)
    (by simp [f, hcreated]) fun _ => ⟨rfl, rfl⟩
  exact
    { writers := by
        simp only [release, setFilter, writer_update]
        exact hI.writers.release rfl
      requests := by
        simp only [release, setFilter, req_update]
        exact hI.requests.release rfl
      fresh := hnew
      idle := hidle
      own := by
        refine (Function.forall_update_iff p.filters fun r' f =>
          ∀ a w, f.writer = some a → (p.release r).writers.read a = some w → w.OwnedBy r').mpr
            ⟨by simp, fun r' _ a w ha hread => hI.own r' a w ha ?_⟩
        cases hw : (p.filters r).writer <;> simpa [release, hw] using hread
      goroutines := hgo
      tasks := htasks
      log := hI.log }

end Life

/-! ## One step -/

section Goroutine

variable {p p' : Pool} {i : ℕ} {c : ClientOp} {g : Goroutine}

lemma step_goroutine (hg : p.goroutines[i]? = some g) (h : p.step (.goroutine i c) = some p') :
    p.perform g.owner g.writer g.request c = some p' := by
  have hstep : c.isMethod = true ∧ p.perform g.owner g.writer g.request c = some p' := by
    simpa [step, hg] using h
  exact hstep.2

/-- Before the `OnDestroy` of its own request a goroutine holds what the request holds. -/
lemma Inv.holds (hI : p.Inv) (hlate : p.beforeDestroy (.goroutine i c) = true)
    (hg : p.goroutines[i]? = some g) :
    (p.filters g.owner).writer = some g.writer ∧ (p.filters g.owner).req = some g.request := by
  have hlive : (p.filters g.owner).destroyed = false := by simpa [beforeDestroy, hg] using hlate
  rcases (hI.goroutines g (List.mem_of_getElem? hg)).2 with hdead | hholds
  · simp [hlive] at hdead
  · exact hholds

end Goroutine

lemma inv_step {p p' : Pool} {l : Label} (hI : p.Inv) (hlate : p.beforeDestroy l = true)
    (h : p.step l = some p') : p'.Inv := by
  cases l with
  | create r =>
      obtain ⟨hcreated, rfl⟩ := by simpa [step] using h
      exact inv_create hI hcreated
  | requestHeaders r hm name reqChoice writerChoice =>
      obtain ⟨⟨hlive, hstarted⟩, h⟩ := by simpa [step] using h
      exact inv_acquire hI hlive hstarted h
  | worker r c =>
      cases ha : (p.filters r).writer with
      | none => simp [step, ha] at h
      | some a =>
          cases hq : (p.filters r).req with
          | none => simp [step, ha, hq] at h
          | some q => exact inv_perform hI ha hq (by simpa [step, ha, hq] using h)
  | responseHeaders r =>
      obtain ⟨-, rfl⟩ := by simpa [step] using h
      exact
        { hI with
          log := by
            intro c hc
            rcases List.mem_append.mp hc with hc | hc
            · exact hI.log c hc
            · rw [List.mem_singleton.mp hc]
              exact ⟨fun _ => rfl, by simp [HandleCall.ids]⟩ }
  | destroy r =>
      obtain ⟨hlive, rfl⟩ := by simpa [step] using h
      exact inv_release hI hlive
  | goroutine i c =>
      cases hg : p.goroutines[i]? with
      | none => simp [step, hg] at h
      | some g =>
          obtain ⟨ha, hq⟩ := hI.holds hlate hg
          exact inv_perform hI ha hq (step_goroutine hg h)
  | goroutineReturns i =>
      cases hg : p.goroutines[i]? with
      | none => simp [step, hg] at h
      | some g =>
          obtain rfl : _ = p' := by simpa [step, hg] using h
          have hmem := List.mem_of_getElem? hg
          exact
            { hI with
              goroutines := fun g' hg' => hI.goroutines g' (List.mem_of_mem_eraseIdx hg')
              tasks := by
                intro t ht
                rcases List.mem_append.mp ht with ht | ht
                · exact hI.tasks t ht
                · rw [List.mem_singleton.mp ht]
                  exact ⟨(hI.goroutines g hmem).1, rfl, (hI.goroutines g hmem).2.imp_right (·.1)⟩ }
  | task i =>
      cases ht : p.tasks[i]? with
      | none => simp [step, ht] at h
      | some t =>
          obtain ⟨hlive, w, hread, rfl⟩ := by simpa [step, ht] using h
          obtain ⟨hsched, -, huse⟩ := hI.tasks t (List.mem_of_getElem? ht)
          have hw : w.OwnedBy t.owner := by
            rcases huse with hdead | ha
            · simp [live, hsched, hdead] at hlive
            · exact hI.own t.owner t.writer w ha hread
          exact
            { hI with
              tasks := fun t' ht' => hI.tasks t' (List.mem_of_mem_eraseIdx ht')
              log := by
                intro c hc
                rcases List.mem_append.mp hc with hc | hc
                · exact hI.log c hc
                · exact own_of_ownedBy hw rfl t.op c (by simpa using hc) }

/-- Before its own `OnDestroy` a goroutine reaches its own objects only. -/
lemma isolates_of_beforeDestroy {p : Pool} {l : Label} (hI : p.Inv)
    (hlate : p.beforeDestroy l = true) : p.Isolates l := by
  intro p' i g hstep hi hg b hb
  cases l with
  | goroutine j c =>
      obtain rfl : j = i := by simpa [Label.goroutineIndex] using hi
      obtain ⟨-, hwriters, hrequests⟩ := perform_frame (step_goroutine hg hstep)
      obtain ⟨ha, hq⟩ := hI.holds hlate hg
      constructor
      · intro a hba
        exact hwriters a (hI.writers.ne ha hba hb)
      · intro q hbq
        exact hrequests q (hI.requests.ne hq hbq hb)
  | goroutineReturns j =>
      obtain rfl : j = i := by simpa [Label.goroutineIndex] using hi
      obtain rfl : _ = p' := by simpa [step, hg] using hstep
      exact ⟨fun _ _ => rfl, fun _ _ => rfl⟩
  | _ => simp [Label.goroutineIndex] at hi

/-! ## Whole runs -/

/-- **The pooled objects are isolated** in every run in which no goroutine makes a call after the
`OnDestroy` of its own request. -/
theorem isolated_of_beforeDestroy (ls : List Label)
    (hlate : Along step (fun p l => p.beforeDestroy l = true) {} ls) : Isolated ls where
  objects :=
    Along.of_invariant (I := Inv) (fun _ _ _ hI hC h => inv_step hI hC h)
      (fun _ _ => isolates_of_beforeDestroy) inv_empty hlate
  calls _ hrun :=
    (run_invariant_of_along (I := Inv) (fun _ _ _ hI hC h => inv_step hI hC h) inv_empty hlate
      hrun).log

/-- A request whose handler calls `Go`, up to the return of the handler. -/
def handlerGoes (r : ℕ) (choice : Option ℕ) : List Label :=
  [.create r, .requestHeaders r ⟨fun _ => none⟩ (ascii "auth") choice choice,
    .worker r (.writer .go)]

/-- The client of request 0 disconnects and request 1 gets its objects; then the goroutine of request
0 sets its header, and the handler of request 1 is flushed. -/
def lateGoroutine : List Label :=
  handlerGoes 0 none ++
    [.worker 0 (.writer .flushResponse), .destroy 0, .create 1,
      .requestHeaders 1 ⟨fun _ => none⟩ (ascii "auth") (some 0) (some 0),
      .goroutine 0 (.writer (.call (.setRequestHeader (ascii "x-user") (ascii "alice")))),
      .worker 1 (.writer (.flush false))]

/-- The header of one request's goroutine reaches the upstream with another request. -/
theorem lateGoroutine_not_isolated : ¬ ∀ ls : List Label, Isolated ls := by
  intro h
  have hown := (h lateGoroutine).calls _ rfl
    ⟨1, 1, .headerSet ⟨⟨ascii "x-user", ascii "alice"⟩, ⟨0, 2⟩⟩⟩ (by decide)
  exact absurd hown (by decide)

/-- The goroutine of request 0 ends in time, and request 1 gets the objects after that. -/
def timelyGoroutine : List Label :=
  handlerGoes 0 none ++
    [.goroutine 0 (.writer (.call (.setRequestHeader (ascii "x-user") (ascii "alice")))),
      .goroutineReturns 0, .task 0, .destroy 0] ++
    handlerGoes 1 (some 0)

/-- The result applied to that run. -/
theorem isolated_timelyGoroutine :
    (run step {} timelyGoroutine).isSome = true ∧ Isolated timelyGoroutine :=
  ⟨by decide, isolated_of_beforeDestroy timelyGoroutine (by decide)⟩

end Pool

end Luwes.Sahl
