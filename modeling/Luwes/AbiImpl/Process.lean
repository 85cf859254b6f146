import Luwes.AbiImpl.Handle
import Luwes.AbiImpl.Manager
import Luwes.Lib.Decimal
import Luwes.Lib.LabelledRun
import Luwes.Lib.ObjectPool

/-!
# The process: filter instances, the handle pool and the managers

All HTTP filter instances of a process share `dymHttpFilterHandlePool`, `pluginManager` and
`sharedDataManager`, and the instances on one stream share the stream's dynamic metadata, which the
host keeps.  `Process` is all of these, and a step is what one instance does: it is created, its
code calls a method of its handle, or the host calls a hook for it.

The order of the calls is the ABI's: an instance is created first and destroyed last.  Everything
else is free.  Any instances may move in any order, a method may be called at any time between
`on_http_filter_new` taking the handle and `on_http_filter_destroy` giving it back (so in `Create` and in
`OnDestroy` too), and `on_http_filter_destroy` may be repeated until the handle is used again.

`hostPluginPtr` names the host's side of an instance, and is the instance's number.
-/

namespace Luwes.AbiImpl

open LabelledRun

variable {ω : Type}

/-! ## Instances -/

/-- Where an instance is in its life.  `creating` and `destroying` are the times in which the
factory's `Create` and the plugin's `OnDestroy` run. -/
inductive Phase
  | idle
  | creating
  | live
  | destroying
  | gone
  deriving DecidableEq, Repr

/-- The instance has a handle of its own. -/
def Phase.holds : Phase → Bool
  | .creating | .live | .destroying => true
  | .idle | .gone => false

/-- The host calls the instance's hooks. -/
def Phase.hooked : Phase → Bool
  | .live | .destroying => true
  | .idle | .creating | .gone => false

/-- The host's side of an instance. -/
structure Instance where
  phase : Phase := .idle
  /-- The address of its handle. -/
  handle : ℕ := 0
  stream : ℕ := 0
  /-- `on_http_filter_stream_complete` has been called. -/
  completed : Bool := false

/-- What happens to one handle in one step. -/
inductive Act (ω : Type)
  /-- `Create` returns. -/
  | created (plugin : Option ω)
  | call (m : DymHttpFilterHandle.Method ω)
  | hook (k : DymHttpFilterHandle.Hook)
  /-- The plugin's `OnDestroy` returns. -/
  | destroyReturned

/-- The step, seen from the handle. -/
def DymHttpFilterHandle.act (h : DymHttpFilterHandle ω) :
    Act ω → List (DymHttpFilterHandle.Effect ω) × DymHttpFilterHandle ω
  | .created plugin => ([], { h with plugin := plugin })
  | .call m => h.call m
  | .hook k => h.hook k
  | .destroyReturned => ([], h.onDestroyReturned)

/-! ## The process -/

/-- `httpFilterSharedDataWrapper`, with the instance that has recorded it. -/
structure SharedDataWrapper (ω : Type) where
  data : Option ω
  setter : ℕ

/-- A call of `SetData`. -/
structure SetRecord (ω : Type) where
  setter : ℕ
  stream : ℕ
  key : GoString
  value : Option ω
  pointer : ℕ
  /-- A `stream_complete` of the setter that found a plugin has come since. -/
  cleared : Bool := false

/-- The record of a call of `SetData` after its setter's `stream_complete`. -/
def SetRecord.clear (r : SetRecord ω) : SetRecord ω := { r with cleared := true }

/-- What an instance did, and what could be seen of it. -/
structure Entry (ω : Type) where
  instance_ : ℕ
  act : Act ω
  effects : List (DymHttpFilterHandle.Effect ω)

/-- The process.  `owner`, `sets` and `trace` are records of the past. -/
structure Process (ω : Type) where
  handles : ObjectPool (DymHttpFilterHandle ω) := {}
  pluginManager : Manager ℕ := {}
  sharedDataManager : Manager (SharedDataWrapper ω) := {}
  /-- The dynamic metadata in the namespace `composer.shared_data`, by stream and key. -/
  metadata : ℕ → GoString → Option GoString := fun _ _ => none
  instances : ℕ → Instance := fun _ => {}
  /-- `reset` has panicked, and the process is dead. -/
  panicked : Bool := false
  /-- The instance that was given an address last. -/
  owner : ℕ → Option ℕ := fun _ => none
  sets : List (SetRecord ω) := []
  trace : List (Entry ω) := []

namespace Process

/-- `strconv.FormatUint(v, 10)`. -/
def formatUint (v : ℕ) : GoString := Decimal.format v

/-- `strconv.ParseUint(s, 10, 64)`; `none` is an error. -/
def parseUint (s : GoString) : Option ℕ := (Decimal.parse s).filter (· < 2 ^ 64)

/-- `GetData`, through a handle with this host pointer. -/
def getData (p : Process ω) (hostPluginPtr : ℕ) (key : GoString) : Option ω :=
  match p.metadata (p.instances hostPluginPtr).stream key with
  | none => none
  | some buf =>
    match parseUint buf with
    | none => none
    | some pointer =>
      match p.sharedDataManager.search pointer with
      | none => none
      | some wrapper => wrapper.data

/-- An address the allocator may give to a new wrapper: neither the manager nor the list of any handle
holds it. -/
def allocatable (p : Process ω) (pointer : ℕ) : Bool :=
  pointer < 2 ^ 64 && (p.sharedDataManager.search pointer).isNone &&
    p.handles.heap.all fun h => pointer ∉ h.recordedSharedData

/-- `SetData` by instance `i`, through its handle `h`: all but the handle's list. -/
def setData (p : Process ω) (i : ℕ) (h : DymHttpFilterHandle ω) (key : GoString)
    (value : Option ω) (pointer : ℕ) : Process ω :=
  let stream := (p.instances h.hostPluginPtr).stream
  { p with
    sharedDataManager := p.sharedDataManager.record pointer ⟨value, i⟩
    metadata := Function.update p.metadata stream
      (Function.update (p.metadata stream) key (some (formatUint pointer)))
    sets := p.sets ++ [⟨i, stream, key, value, pointer, false⟩] }

def setInstance (p : Process ω) (i : ℕ) (x : Instance) : Process ω :=
  { p with instances := Function.update p.instances i x }

/-- `stream_complete` of instance `i`, through its handle `h`: all but the handle. -/
def streamComplete (p : Process ω) (i : ℕ) (h : DymHttpFilterHandle ω) : Process ω :=
  { p with
    sharedDataManager := p.sharedDataManager.removeAll h.clearData
    instances := Function.update p.instances i { p.instances i with completed := true }
    sets := p.sets.map fun r => if r.setter = i && h.plugin.isSome then r.clear else r }

/-- Who moves. -/
inductive Label (ω : Type)
  /-- The host calls `on_http_filter_new` for instance `i` on a stream, and `newDymStreamPluginHandle`
  takes a handle; `choice` is what the pool hands out. -/
  | new (i stream : ℕ) (choice : Option ℕ)
  | act (i : ℕ) (a : Act ω)

/-- The ABI, and the allocator, allow the step.  A plugin that has kept its scheduler may call `Schedule` on
it after the handle has been given up; that acts on no handle, and is no step. -/
def allows (p : Process ω) (i : ℕ) : Act ω → Bool
  | .created _ => (p.instances i).phase = .creating
  | .call (.setData _ _ pointer) => (p.instances i).phase.holds && p.allocatable pointer
  | .call _ => (p.instances i).phase.holds
  | .hook .destroy =>
    (p.instances i).phase.hooked ||
      (p.instances i).phase = .gone && p.owner (p.instances i).handle = some i
  | .hook _ => (p.instances i).phase.hooked
  | .destroyReturned => (p.instances i).phase = .destroying

/-- What the step of instance `i` does besides changing its handle, which was `h`. -/
def around (p : Process ω) (i : ℕ) (h : DymHttpFilterHandle ω) : Act ω → Process ω
  | .created _ =>
    { p.setInstance i { p.instances i with phase := .live } with
      pluginManager :=
        p.pluginManager.record (p.instances i).handle (p.instances i).handle }
  | .call (.setData key value pointer) => p.setData i h key value pointer
  | .call _ => p
  | .hook .streamComplete => p.streamComplete i h
  | .hook .destroy =>
    if h.streamDestoried then p
    else p.setInstance i { p.instances i with phase := .destroying }
  | .hook _ => p
  | .destroyReturned =>
    { p.setInstance i { p.instances i with phase := .gone } with
      pluginManager := p.pluginManager.remove (p.instances i).handle
      handles := p.handles.put (p.instances i).handle }

/-- The step of instance `i` on its handle, with the record of it. -/
def record (p : Process ω) (i : ℕ) (h : DymHttpFilterHandle ω) (a : Act ω) : Process ω :=
  { p with
    handles := p.handles.write (p.instances i).handle (h.act a).2
    trace := p.trace ++ [⟨i, a, (h.act a).1⟩] }

/-- `newDymStreamPluginHandle` gives instance `i` the handle at `a`, as the pool had it. -/
def acquire (p : Process ω) (i stream : ℕ) (a : ℕ) (h : DymHttpFilterHandle ω) : Process ω :=
  match h.reset i with
  | none => { p with panicked := true }
  | some h' =>
    { p.setInstance i { phase := .creating, handle := a, stream := stream } with
      handles := p.handles.write a h'
      owner := Function.update p.owner a (some i) }

/-- One step. -/
def step (p : Process ω) : Label ω → Option (Process ω)
  | .new i stream choice =>
    if p.panicked || (p.instances i).phase ≠ .idle then none
    else
      (p.handles.get {} choice).bind fun r =>
        (r.2.read r.1).map fun h => { p with handles := r.2 }.acquire i stream r.1 h
  | .act i a =>
    if p.panicked || !p.allows i a then none
    else (p.handles.read (p.instances i).handle).map fun h => (p.record i h a).around i h a

/-! ## What a step changes -/

/-- The phase of an instance after a step on its handle, which was `h`. -/
def nextPhase (phase : Phase) (h : DymHttpFilterHandle ω) : Act ω → Phase
  | .created _ => .live
  | .hook .destroy => if h.streamDestoried then phase else .destroying
  | .destroyReturned => .gone
  | _ => phase

/-- The host's side of an instance after a step. -/
def nextInstance (x : Instance) (h : DymHttpFilterHandle ω) (a : Act ω) : Instance :=
  { x with
    phase := nextPhase x.phase h a
    completed :=
      match a with
      | .hook .streamComplete => true
      | _ => x.completed }

lemma around_instances (p : Process ω) (i : ℕ) (h : DymHttpFilterHandle ω) (a : Act ω) :
    (p.around i h a).instances =
      Function.update p.instances i (nextInstance (p.instances i) h a) := by
  have hself : Function.update p.instances i (p.instances i) = p.instances :=
    Function.update_eq_self i p.instances
  cases a with
  | created plugin => rfl
  | destroyReturned => rfl
  | call m => cases m <;> simp [around, nextInstance, nextPhase, setData]
  | hook k =>
      cases k with
      | destroy =>
          cases hd : h.streamDestoried <;>
            simp [around, nextInstance, nextPhase, hd, setInstance]
      | streamComplete => rfl
      | _ => simp [around, nextInstance, nextPhase]

/-- No step but these three has to do with anyone else's handle. -/
lemma around_rest (p : Process ω) (i : ℕ) (h : DymHttpFilterHandle ω) (a : Act ω) :
    (p.around i h a).trace = p.trace ∧ (p.around i h a).owner = p.owner ∧
      (p.around i h a).panicked = p.panicked ∧
      (p.around i h a).handles.heap = p.handles.heap := by
  cases a with
  | created plugin => exact ⟨rfl, rfl, rfl, rfl⟩
  | destroyReturned => exact ⟨rfl, rfl, rfl, rfl⟩
  | call m => cases m <;> exact ⟨rfl, rfl, rfl, rfl⟩
  | hook k =>
      cases k with
      | destroy => cases hd : h.streamDestoried <;> simp [around, hd, setInstance]
      | _ => exact ⟨rfl, rfl, rfl, rfl⟩

/-- Only the end of `on_http_filter_destroy` touches the pool. -/
lemma around_handles (p : Process ω) (i : ℕ) (h : DymHttpFilterHandle ω) {a : Act ω}
    (ha : a ≠ .destroyReturned) : (p.around i h a).handles = p.handles := by
  cases a with
  | created plugin => rfl
  | destroyReturned => exact absurd rfl ha
  | call m => cases m <;> rfl
  | hook k =>
      cases k with
      | destroy => cases hd : h.streamDestoried <;> simp [around, hd, setInstance]
      | _ => rfl

/-- An address in the manager was there before, or belongs to a new instance; the address of an
instance that is gone is not. -/
lemma around_pluginManager (p : Process ω) (i : ℕ) (h : DymHttpFilterHandle ω) (a : Act ω) {b x : ℕ}
    (hb : (p.around i h a).pluginManager.search b = some x) :
    p.pluginManager.search b = some x ∧ (a = .destroyReturned → b ≠ (p.instances i).handle) ∨
      (∃ plugin, a = .created plugin) ∧ b = (p.instances i).handle := by
  cases a with
  | created plugin =>
      by_cases hbh : b = (p.instances i).handle
      · exact .inr ⟨⟨plugin, rfl⟩, hbh⟩
      · exact .inl ⟨by simpa [around, hbh] using hb, nofun⟩
  | destroyReturned =>
      by_cases hbh : b = (p.instances i).handle
      · simp [around, hbh] at hb
      · exact .inl ⟨by simpa [around, hbh] using hb, fun _ => hbh⟩
  | call m => exact .inl ⟨by cases m <;> exact hb, nofun⟩
  | hook k =>
      refine .inl ⟨?_, nofun⟩
      cases k with
      | destroy => cases hd : h.streamDestoried <;> simpa [around, hd, setInstance] using hb
      | _ => exact hb

end Process

end Luwes.AbiImpl
