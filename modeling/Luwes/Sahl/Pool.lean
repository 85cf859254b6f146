import Luwes.Lib.LabelledRun
import Luwes.Lib.ObjectPool
import Luwes.Sahl.Request
import Luwes.Sahl.WriterOps

/-!
# Requests that share the pools

`OnRequestHeaders` takes a Writer and a Request from process-wide pools and `OnDestroy` gives them
back.  User code holds the pointers it was given, and a goroutine of `Go` holds them for as long as
it runs: nothing makes `OnDestroy` wait for it.

`Pool` is any number of requests over one heap of Writers and one heap of Requests.  User code is not
a program here but anything that can be done with the pointers, one method at a time, so a
statement about all runs is a statement about all handlers, observers, continuations and goroutine
bodies and about every interleaving of their calls.  What a method does to a Writer, and which calls
it makes on the Writer's handle, is `Writer.apply`; what a filter does by itself is made of the same
operations (`State.Moves.writerOps`).

* A call on a handle goes to the handle *the Writer* points at, and a `Do` is scheduled on the
  scheduler *the Writer* points at.  The final flush of `Go` is scheduled on the scheduler the Writer
  pointed at when `Go` was called.
* The log keeps every call on a handle, with the request whose code made it.
-/

namespace Luwes.Sahl

open LabelledRun

/-! ## The state -/

/-- The goroutine of a `Go`: whose it is (a ghost), and the pointers it holds. -/
structure Goroutine where
  owner : ℕ
  scheduler : ℕ
  writer : ℕ
  request : ℕ
  deriving DecidableEq, Repr

/-- A function committed to a scheduler: the final flush of a `Go` or the callout of a `Do`, through
the Writer it has captured. -/
structure PoolTask where
  scheduler : ℕ
  owner : ℕ
  writer : ℕ
  op : WriterOp

/-- The `sahlFilter` of one request. -/
structure PoolFilter where
  created : Bool := false
  started : Bool := false
  destroyed : Bool := false
  writer : Option ℕ := none
  req : Option ℕ := none
  deriving DecidableEq, Repr

/-- A call on the handle of a request, made by code of the request `actor`. -/
structure PoolCall where
  handle : ℕ
  actor : ℕ
  call : HandleCall
  deriving DecidableEq, Repr

/-- All requests of a process; `seq` numbers the next call of user code. -/
structure Pool where
  writers : ObjectPool Writer := {}
  requests : ObjectPool Request := {}
  filters : ℕ → PoolFilter := fun _ => {}
  goroutines : List Goroutine := []
  tasks : List PoolTask := []
  log : List PoolCall := []
  seq : ℕ := 0

namespace Pool

/-! ## What user code does -/

/-- One call of user code: a method of the Writer, `Do`, or `r.Header.Get`.  The other methods of a
Request read it and change nothing. -/
inductive ClientOp
  | writer (op : WriterOp)
  | doCallout (req : HTTPCalloutRequest)
  | headerGet (key : GoString)

/-- What a goroutine can call. -/
def ClientOp.isMethod : ClientOp → Bool
  | .writer op => op.isMethod
  | _ => true

/-- The goroutine that `Go` starts, unless it panics. -/
def spawned (w : Writer) (r a q : ℕ) : WriterOp → List Goroutine
  | .go => if w.goPanics then [] else [⟨r, w.scheduler, a, q⟩]
  | _ => []

/-- Code of request `r` makes a call through the Writer at `a` and the Request at `q`. -/
def perform (p : Pool) (r a q : ℕ) : ClientOp → Option Pool
  | .writer op =>
    (p.writers.read a).map fun w =>
      let res := w.apply ⟨r, p.seq⟩ op
      { p with
        writers := p.writers.write a res.1
        log := p.log ++ res.2.map (⟨w.handle, r, ·⟩)
        goroutines := p.goroutines ++ spawned w r a q op
        seq := p.seq + 1 }
  | .doCallout req =>
    (p.writers.read a).map fun w =>
      if w.goStarted then
        { p with tasks := p.tasks ++ [⟨w.scheduler, r, a, .scheduledCallout req⟩] }
      else p
  | .headerGet key =>
    (p.requests.read q).map fun x => { p with requests := p.requests.write q (x.headerGet key) }

/-! ## Steps -/

/-- What happens next. -/
inductive Label
  /-- `newSahlFilter`. -/
  | create (r : ℕ)
  /-- `OnRequestHeaders` takes its objects; the choices are those of the two pools. -/
  | requestHeaders (r : ℕ) (hm : HeaderMap) (name : GoString) (reqChoice writerChoice : Option ℕ)
  /-- The worker thread runs code of a request that has started and is not destroyed: its handler, a
  continuation, its observer, or the end of a callback.  `OnStreamComplete` is `flushResponse`.  A
  continuation counts as code of the request whose callback runs it, which is the request that has
  stored it as long as the objects are isolated. -/
  | worker (r : ℕ) (c : ClientOp)
  /-- The filter removes a response header through its own handle. -/
  | responseHeaders (r : ℕ)
  /-- `OnDestroy`. -/
  | destroy (r : ℕ)
  /-- A goroutine makes a call. -/
  | goroutine (i : ℕ) (c : ClientOp)
  /-- The function of a goroutine returns. -/
  | goroutineReturns (i : ℕ)
  /-- A scheduler runs a task of a request that is not destroyed. -/
  | task (i : ℕ)

/-- Replace the filter of a request. -/
def setFilter (p : Pool) (r : ℕ) (f : PoolFilter) : Pool :=
  { p with filters := Function.update p.filters r f }

/-- The filter of the request exists. -/
def live (p : Pool) (r : ℕ) : Bool := (p.filters r).created && !(p.filters r).destroyed

/-- `OnRequestHeaders` up to the call of the handler. -/
def acquire (p : Pool) (r : ℕ) (hm : HeaderMap) (name : GoString)
    (reqChoice writerChoice : Option ℕ) : Option Pool :=
  (p.requests.get {} reqChoice).bind fun (q, requests) =>
    (requests.read q).bind fun x =>
      (p.writers.get Writer.zero writerChoice).bind fun (a, writers) =>
        (writers.read a).map fun w =>
          { p.setFilter r { p.filters r with started := true, writer := some a, req := some q } with
            requests := requests.write q (x.reset hm r name)
            writers := writers.write a
              { w.reset r r with calloutCB := some r, streamCB := some r } }

/-- `OnDestroy`. -/
def release (p : Pool) (r : ℕ) : Pool :=
  let f := p.filters r
  { p.setFilter r { f with destroyed := true, writer := none, req := none } with
    requests := f.req.elim p.requests p.requests.put
    writers := f.writer.elim p.writers p.writers.put }

/-- One step. -/
def step (p : Pool) : Label → Option Pool
  | .create r =>
    if (p.filters r).created then none else some (p.setFilter r { created := true })
  | .requestHeaders r hm name reqChoice writerChoice =>
    if p.live r && !(p.filters r).started then p.acquire r hm name reqChoice writerChoice else none
  | .worker r c =>
    match (p.filters r).writer, (p.filters r).req with
    | some a, some q => p.perform r a q c
    | _, _ => none
  | .responseHeaders r =>
    if p.live r then
      some { p with log := p.log ++ [⟨r, r, .removeResponseHeader (ascii "content-length")⟩] }
    else none
  | .destroy r => if p.live r then some (p.release r) else none
  | .goroutine i c =>
    match p.goroutines[i]? with
    | none => none
    | some g => if c.isMethod then p.perform g.owner g.writer g.request c else none
  | .goroutineReturns i =>
    match p.goroutines[i]? with
    | none => none
    | some g =>
      some { p with
        goroutines := p.goroutines.eraseIdx i
        tasks := p.tasks ++ [⟨g.scheduler, g.owner, g.writer, .flush true⟩] }
  | .task i =>
    match p.tasks[i]? with
    | none => none
    | some t =>
      if p.live t.scheduler then
        (p.writers.read t.writer).map fun w =>
          { p with
            tasks := p.tasks.eraseIdx i
            log := p.log ++ (w.apply ⟨t.owner, p.seq⟩ t.op).2.map (⟨w.handle, t.owner, ·⟩) }
      else none

/-! ## Isolation -/

/-- The goroutine that moves. -/
def Label.goroutineIndex : Label → Option ℕ
  | .goroutine i _ | .goroutineReturns i => some i
  | _ => none

/-- The step, if a goroutine takes it, leaves the objects of every other live request alone. -/
def Isolates (p : Pool) (l : Label) : Prop :=
  ∀ p' i g, p.step l = some p' → l.goroutineIndex = some i → p.goroutines[i]? = some g →
    ∀ b, b ≠ g.owner →
      (∀ a, (p.filters b).writer = some a → p'.writers.read a = p.writers.read a) ∧
        ∀ q, (p.filters b).req = some q → p'.requests.read q = p.requests.read q

end Pool

/-- The call on the handle of a request was queued by that request's own code; a call that applies
nothing queued was made by it. -/
def PoolCall.Own (c : PoolCall) : Prop :=
  (c.call.ids = [] → c.actor = c.handle) ∧ ∀ id ∈ c.call.ids, id.request = c.handle

instance (c : PoolCall) : Decidable c.Own := inferInstanceAs (Decidable (_ ∧ _))

namespace Pool

/-- No request reaches the objects or the handle of another one. -/
structure Isolated (ls : List Label) : Prop where
  objects : Along step Isolates {} ls
  calls : ∀ p, run step {} ls = some p → ∀ c ∈ p.log, c.Own

end Pool

end Luwes.Sahl
