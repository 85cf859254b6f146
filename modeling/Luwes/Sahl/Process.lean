import Luwes.Lib.LabelledRun
import Luwes.Lib.ObjectPool
import Luwes.Sahl.Request
import Luwes.Sahl.WriterOps

/-!
# All requests of a process, over the three pools

`newSahlFilter` takes a `sahlFilter` from a pool, `OnRequestHeaders` a Request and a Writer, and
`OnDestroy` gives all three back.  None of them is new: `newSahlFilter` sets four fields and relies on
`OnDestroy` for the others, `Request.reset` and `Writer.reset` set theirs when the object is taken.

`Process` is any number of requests over the three pools, of any number of filter factories.  Every
request is a `State`, but the fields of it that are fields of a pooled object are read from that
object before each step and written back after it (`Instance.load`, `SahlFilter.store`), so a request
starts with what was in the objects when the pools handed them out.  Which objects a pool hands out is
not specified.

* A request, its handle, its scheduler and its callback objects are named by one number, as in
  `State`.  The number is read from `f.handle`: a filter that points at another request's handle
  would act for that request.
* A call on a handle goes to the handle the Writer points at, or, where the filter makes it, to the
  handle the filter points at.  The log keeps it with that handle.
* What user code reads from its Request and its Writer is kept with the answer that it goes on with.
-/

namespace Luwes.Sahl

open LabelledRun

/-! ## Configuration -/

/-- `filterDef` as it is registered.  Of its two functions the model keeps whether they are set; what
a call of them returns is chosen when it is made. -/
structure RegisteredDef where
  configFn : Bool := false
  factoryFn : Bool := false
  handler : Option HandlerFunc := none
  responseFn : Option ResponseHandlerFunc := none
  bodyAware : Bool := false
  mutableResponse : Bool := false

/-- `configFactory`. -/
structure ConfigFactory where
  name : GoString
  filterDef : RegisteredDef

/-- `filterFactory`. -/
structure FilterFactory where
  name : GoString
  filterDef : FilterDef

/-- What the call of `factoryFn` returns, or that of `configFn`, which returns an error only. -/
structure FactoryCall where
  handler : Option HandlerFunc := none
  err : Option GoString := none

/-- How `configFactory.Create` ends.  Each of the three failures is an error that is logged too. -/
inductive Created
  | ok (factory : FilterFactory)
  | factoryFailed (err : GoString)
  /-- "factory returned nil handler" -/
  | nilHandler
  | configFailed (err : GoString)
  /-- "BUG: sahl: filter registered with nil handler" -/
  | panics

namespace ConfigFactory

/-- The end of `Create`, with `def.handler` resolved. -/
def build (f : ConfigFactory) : Option HandlerFunc → Created
  | none => .panics
  | some fn =>
    .ok
      { name := f.name
        filterDef :=
          { handler := fn
            responseFn := f.filterDef.responseFn
            bodyAware := f.filterDef.bodyAware
            mutableResponse := f.filterDef.mutableResponse } }

/-- `Create`. -/
def create (f : ConfigFactory) (call : FactoryCall) : Created :=
  if f.filterDef.factoryFn then
    match call.err, call.handler with
    | some err, _ => .factoryFailed err
    | none, none => .nilHandler
    | none, some fn => f.build (some fn)
  else if f.filterDef.configFn then
    match call.err with
    | some err => .configFailed err
    | none => f.build f.filterDef.handler
  else f.build f.filterDef.handler

end ConfigFactory

/-! ## The pooled filter -/

/-- `sahlFilter`.  `req` and `writer` are addresses in the other two pools. -/
structure SahlFilter where
  name : GoString := []
  handler : Option FilterDef := none
  handle : ℕ := 0
  req : Option ℕ := none
  writer : Option ℕ := none
  respState : ResponseState := {}
  bodyDone : Bool := false
  streamDone : Bool := false

/-- `newSahlFilter` on the object the pool has given; `none` is its panic. -/
def newSahlFilter (f : SahlFilter) (name : GoString) (d : FilterDef) (handle : ℕ) :
    Option SahlFilter :=
  if f.handler.isSome then none
  else
    some { f with
      name := name
      handler := some d
      handle := handle
      bodyDone := false
      streamDone := false }

namespace SahlFilter

/-- `OnDestroy`, up to what it gives back to the pools. -/
def onDestroy (f : SahlFilter) : SahlFilter :=
  { f with
    req := none
    writer := none
    respState := f.respState.reset
    handler := none }

/-- The filter after a step of its request. -/
def store (f : SahlFilter) (s : State) : SahlFilter :=
  { f with
    respState := s.respState
    bodyDone := s.bodyDone
    streamDone := s.streamDone }

end SahlFilter

/-! ## What user code reads -/

/-- The reads of a Request and of a Writer. -/
inductive Read
  | headerGet (key : GoString)
  | headerPeek (key : GoString)
  | method
  | path
  | host
  | filterName
  | localReplyDetails
  deriving DecidableEq, Repr

/-- The value, and the Request after the read; `none` is the `("", false)` of `Peek`. -/
def Request.answer (r : Request) (w : Writer) : Read → Option GoString × Request
  | .headerGet key => (some (r.header.get key).1, r.headerGet key)
  | .headerPeek key => (r.header.peek key, r)
  | .method => (some r.method, r)
  | .path => (some r.path, r)
  | .host => (some r.host, r)
  | .filterName => (some r.filterName, r)
  | .localReplyDetails => (some w.localReplyDetails, r)

/-- Who runs user code. -/
inductive Thread
  | worker
  | goroutine
  deriving DecidableEq, Repr

/-- The step of that thread. -/
def Thread.label : Thread → State.Choice → State.Label
  | .worker, c => .worker c
  | .goroutine, c => .goroutine c

/-- The thread is about to read. -/
def State.observing (s : State) : Thread → Bool
  | .worker =>
    match s.stack with
    | ⟨.prog (.observe _), _⟩ :: _ => true
    | _ => false
  | .goroutine =>
    match s.goroutine with
    | some (.prog (.observe _)) => true
    | _ => false

/-- A read, its value, and what the code has made of it. -/
structure ReadEntry where
  thread : Thread
  read : Read
  value : Option GoString
  answer : ℕ
  deriving DecidableEq, Repr

/-! ## The process -/

/-- A request.  Its pointers are those its code was given, so `OnDestroy` leaves them. -/
structure Instance where
  /-- The number of its `filterFactory`. -/
  factory : ℕ
  filter : ℕ
  writer : Option ℕ := none
  req : Option ℕ := none
  /-- The request but for the pooled objects.  The fields that are theirs are not read from here. -/
  rest : State
  reads : List ReadEntry := []

/-- The request with what is in its filter and its Writer. -/
def Instance.load (x : Instance) (f : SahlFilter) (w : Writer) : State :=
  { x.rest with
    request := f.handle
    writer := w
    filterDef := f.handler.getD x.rest.filterDef
    hasReq := f.req.isSome
    hasWriter := f.writer.isSome
    respState := f.respState
    bodyDone := f.bodyDone
    streamDone := f.streamDone }

/-- What a handle is asked to do. -/
inductive HandleEvent
  | getScheduler
  | call (c : HandleCall)
  deriving DecidableEq, Repr

/-- A `filterFactory`, with the call that has made it. -/
structure Configured where
  config : ConfigFactory
  call : FactoryCall
  factory : FilterFactory

/-- The process; the log keeps every call on a handle. -/
structure Process where
  filters : ObjectPool SahlFilter := {}
  writers : ObjectPool Writer := {}
  requests : ObjectPool Request := {}
  factories : List Configured := []
  instances : ℕ → Option Instance := fun _ => none
  /-- `newSahlFilter` has panicked, and the process is dead. -/
  panicked : Bool := false
  log : List (ℕ × HandleEvent) := []

namespace Process

/-- The Writer the code of a request was given; before `OnRequestHeaders` there is none, and nothing
reads it. -/
def writerOf (p : Process) (x : Instance) : Option Writer :=
  match x.writer with
  | none => some x.rest.writer
  | some a => p.writers.read a

/-- Request `i` as it is now. -/
def stateOf (p : Process) (i : ℕ) : Option State :=
  (p.instances i).bind fun x =>
    (p.filters.read x.filter).bind fun f => (p.writerOf x).map (x.load f)

/-- The Request object of request `i`. -/
def requestOf (p : Process) (i : ℕ) : Option Request :=
  (p.instances i).bind fun x => x.req.bind p.requests.read

/-- The calls that have reached handle `i`. -/
def callsOn (p : Process) (i : ℕ) : List HandleEvent :=
  (p.log.filter (·.1 = i)).map (·.2)

/-! ## Steps -/

/-- The handle a call reaches.  Only the response header is removed by the filter itself. -/
def callHandle (f : SahlFilter) (w : Writer) : HandleCall → ℕ
  | .removeResponseHeader _ => f.handle
  | _ => w.handle

/-- The calls of a step from `s` to `s'`. -/
def logged (f : SahlFilter) (s s' : State) : List (ℕ × HandleEvent) :=
  (callsOf (s'.trace.drop s.trace.length)).map fun c => (callHandle f s'.writer c, .call c)

/-- Write back a step of request `i`. -/
def commit (p : Process) (i : ℕ) (x : Instance) (f : SahlFilter) (s s' : State) : Process :=
  { p with
    filters := p.filters.write x.filter (f.store s')
    writers := x.writer.elim p.writers fun a => p.writers.write a s'.writer
    instances := Function.update p.instances i (some { x with rest := s' })
    log := p.log ++ logged f s s' }

/-- Request `i` takes a step. -/
def act (p : Process) (i : ℕ) (l : State.Label) : Option Process :=
  (p.instances i).bind fun x =>
    (p.filters.read x.filter).bind fun f =>
      (p.writerOf x).bind fun w =>
        ((x.load f w).step l).map fun s' => p.commit i x f (x.load f w) s'

/-- `filterFactory.Create`, with the object that the filter pool hands out. -/
def create (p : Process) (i k : ℕ) (factory : FilterFactory) (choice : Option ℕ) :
    Option Process :=
  (p.filters.get {} choice).bind fun r =>
    (r.2.read r.1).map fun f =>
      match newSahlFilter f factory.name factory.filterDef i with
      | none => { p with panicked := true }
      | some f' =>
        { p with
          filters := r.2.write r.1 f'
          instances := Function.update p.instances i
            (some { factory := k, filter := r.1, rest := State.new i factory.filterDef }) }

/-- `OnRequestHeaders` up to the point where the filter has its objects.  The Writer is reset by the
step of the request. -/
def acquire (p : Process) (i : ℕ) (headers : HeaderMap) (reqChoice writerChoice : Option ℕ) :
    Option Process :=
  (p.instances i).bind fun x =>
    (p.filters.read x.filter).bind fun f =>
      (p.requests.get {} reqChoice).bind fun q =>
        (q.2.read q.1).bind fun r =>
          (p.writers.get Writer.zero writerChoice).map fun a =>
            { p with
              filters := p.filters.write x.filter { f with req := some q.1, writer := some a.1 }
              requests := q.2.write q.1 (r.reset headers f.handle f.name)
              writers := a.2
              instances := Function.update p.instances i
                (some { x with req := some q.1, writer := some a.1 })
              log := p.log ++ [(f.handle, .getScheduler)] }

/-- Code of request `i` reads. -/
def look (p : Process) (i : ℕ) (t : Thread) (rd : Read) (answer : ℕ) : Option Process :=
  (p.stateOf i).bind fun s =>
    (p.instances i).bind fun x =>
      x.req.bind fun q =>
        (p.requests.read q).bind fun r =>
          if s.observing t then
            some { p with
              requests := p.requests.write q (r.answer s.writer rd).2
              instances := Function.update p.instances i (some { x with
                reads := x.reads ++ [⟨t, rd, (r.answer s.writer rd).1, answer⟩] }) }
          else none

/-- `OnDestroy` gives the objects of request `i` back. -/
def release (p : Process) (i : ℕ) : Option Process :=
  (p.instances i).bind fun x =>
    (p.filters.read x.filter).map fun f =>
      { p with
        filters := (p.filters.write x.filter f.onDestroy).put x.filter
        requests := f.req.elim p.requests p.requests.put
        writers := f.writer.elim p.writers p.writers.put }

/-- What happens next. -/
inductive Label
  /-- `configFactory.Create`; the call is that of the registered function. -/
  | configure (config : ConfigFactory) (call : FactoryCall)
  /-- The `k`-th `filterFactory` creates the filter of request `i`. -/
  | create (i k : ℕ) (choice : Option ℕ)
  | requestHeaders (i : ℕ) (endOfStream : Bool) (headers : HeaderMap)
      (reqChoice writerChoice : Option ℕ)
  /-- Any other step of request `i`. -/
  | act (i : ℕ) (l : State.Label)
  /-- Code of request `i` that is about to read reads `rd`, and takes the value for `answer`. -/
  | read (i : ℕ) (t : Thread) (rd : Read) (answer : ℕ)
  | destroy (i : ℕ)

/-- The two steps that have to do with the pools. -/
def usesPools : State.Label → Bool
  | .requestHeaders _ | .destroy => true
  | _ => false

/-- What the label does.  A panic of `configFactory.Create` is no step: it takes the process down. -/
def next (p : Process) : Label → Option Process
  | .configure config call =>
    match config.create call with
    | .ok factory => some { p with factories := p.factories ++ [⟨config, call, factory⟩] }
    | .panics => none
    | _ => some p
  | .create i k choice =>
    if (p.instances i).isSome then none
    else (p.factories[k]?).bind fun c => p.create i k c.factory choice
  | .requestHeaders i endOfStream headers reqChoice writerChoice =>
    (p.acquire i headers reqChoice writerChoice).bind fun p' =>
      p'.act i (.requestHeaders endOfStream)
  | .act i l => if usesPools l then none else p.act i l
  | .read i t rd answer =>
    (p.look i t rd answer).bind fun p' => p'.act i (t.label { answer := answer })
  | .destroy i => (p.act i .destroy).bind fun p' => p'.release i

/-- One step. -/
def step (p : Process) (l : Label) : Option Process := if p.panicked then none else p.next l

end Process

end Luwes.Sahl
