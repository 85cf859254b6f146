import Luwes.Lib.LabelledRun
import Luwes.Shared.Base
import Mathlib.Data.List.Nodup
import Mathlib.Logic.Function.Basic

/-!
# Spans (`abi_impl/internal.go`)

The active span of a stream is the host's, and lives as long as the stream.  A child span is the
module's: `finish` releases its pointer, and the host may give the pointer out again.

`GetActiveSpan` and `SpawnChild` return interface values.  Where there is no span they return the nil
interface, and there is no method to call on it, nil receiver or not: the guards in the methods of
`dymSpan` see a nil pointer, which no caller can have.  So a filter panics in exactly the runs in which
it calls a method on a span that the host did not give (`Spans.safe_iff`).  That the pointers passed to
the host are good, and that a child is finished once, holds in every run.
-/

namespace Luwes.AbiImpl

open LabelledRun

/-- A Go interface value: absent, or a typed pointer, which may be nil. -/
inductive Interface (α : Type)
  | absent
  | pointer (p : Option α)

/-- `dymSpan`.  Pointers of the host are numbers, and 0 is nil. -/
structure DymSpan where
  hostPluginPtr : ℕ
  spanPtr : ℕ

/-- `dymChildSpan`. -/
structure DymChildSpan extends DymSpan where
  childPtr : ℕ

/-- The span callbacks of the host, with their arguments but for the span. -/
inductive SpanCallback
  | setTag (key value : GoString)
  | setOperation (operation : GoString)
  | log (hostPluginPtr : ℕ) (event : GoString)
  | setSampled (sampled : Bool)
  | getBaggage (key : GoString)
  | setBaggage (key value : GoString)
  | getTraceID
  | getSpanID
  | spawnChild (hostPluginPtr : ℕ) (operation : GoString)
  | finish
  deriving DecidableEq, Repr

/-- A callback that is called with a span. -/
structure HostCall where
  span : ℕ
  callback : SpanCallback
  deriving DecidableEq, Repr

namespace DymSpan

/-- What the methods of a span have in common: a nil receiver and a nil span make no call. -/
def call (s : Option DymSpan) (callback : DymSpan → SpanCallback) : Option HostCall :=
  match s with
  | none => none
  | some s => if s.spanPtr = 0 then none else some ⟨s.spanPtr, callback s⟩

/-- `SetTag`. -/
def setTag (s : Option DymSpan) (key value : GoString) : Option HostCall :=
  call s fun _ => .setTag key value

/-- `SetOperation`. -/
def setOperation (s : Option DymSpan) (operation : GoString) : Option HostCall :=
  call s fun _ => .setOperation operation

/-- `Log`. -/
def log (s : Option DymSpan) (event : GoString) : Option HostCall :=
  call s fun s => .log s.hostPluginPtr event

/-- `SetSampled`. -/
def setSampled (s : Option DymSpan) (sampled : Bool) : Option HostCall :=
  call s fun _ => .setSampled sampled

/-- `SetBaggage`. -/
def setBaggage (s : Option DymSpan) (key value : GoString) : Option HostCall :=
  call s fun _ => .setBaggage key value

/-- What the readers have in common; `ret` and `valueView` are the host's answer. -/
def read (s : Option DymSpan) (callback : SpanCallback) (ret : Bool) (valueView : UnsafeEnvoyBuffer) :
    Option HostCall × UnsafeEnvoyBuffer × Bool :=
  match call s fun _ => callback with
  | none => (none, ⟨none⟩, false)
  | some c =>
    if !ret then (some c, ⟨none⟩, false)
    else if valueView.ptr.isNone || valueView.len == 0 then (some c, ⟨none⟩, true)
    else (some c, valueView, true)

@[simp] lemma read_fst (s : Option DymSpan) (callback : SpanCallback) (ret : Bool)
    (valueView : UnsafeEnvoyBuffer) :
    (read s callback ret valueView).1 = call s fun _ => callback := by
  rw [read]
  cases call s fun _ => callback with
  | none => rfl
  | some c => dsimp only; split_ifs <;> rfl

/-- `GetBaggage`. -/
def getBaggage (s : Option DymSpan) (key : GoString) := read s (.getBaggage key)

/-- `GetTraceID`. -/
def getTraceID (s : Option DymSpan) := read s .getTraceID

/-- `GetSpanID`. -/
def getSpanID (s : Option DymSpan) := read s .getSpanID

/-- `SpawnChild`, where the host answers `childPtr`. -/
def spawnChild (s : Option DymSpan) (operation : GoString) (childPtr : ℕ) :
    Option HostCall × Interface DymChildSpan :=
  match s with
  | none => (none, .absent)
  | some s =>
    if s.spanPtr = 0 then (none, .absent)
    else
      (some ⟨s.spanPtr, .spawnChild s.hostPluginPtr operation⟩,
        if childPtr = 0 then .absent
        else .pointer (some
          { hostPluginPtr := s.hostPluginPtr, spanPtr := childPtr, childPtr := childPtr }))

end DymSpan

/-- `Finish`: the call to the host, and the child afterwards. -/
def DymChildSpan.finish (s : Option DymChildSpan) : Option HostCall × Option DymChildSpan :=
  match s with
  | none => (none, none)
  | some s =>
    if s.childPtr = 0 then (none, some s)
    else (some ⟨s.childPtr, .finish⟩, some { s with childPtr := 0, spanPtr := 0 })

/-- A call of a method, with the host's answer where it has one. -/
inductive Method
  | setTag (key value : GoString)
  | setOperation (operation : GoString)
  | log (event : GoString)
  | setSampled (sampled : Bool)
  | getBaggage (key : GoString) (ret : Bool) (valueView : UnsafeEnvoyBuffer)
  | setBaggage (key value : GoString)
  | getTraceID (ret : Bool) (valueView : UnsafeEnvoyBuffer)
  | getSpanID (ret : Bool) (valueView : UnsafeEnvoyBuffer)
  | spawnChild (operation : GoString) (childPtr : ℕ)
  | finish

/-- What a filter holds: a `shared.Span` or a `shared.ChildSpan`.  The object behind the pointer is its
own, as every call that returns one makes a new object. -/
inductive SpanValue
  | span (v : Interface DymSpan)
  | childSpan (v : Interface DymChildSpan)

/-- The receiver of a method of `dymSpan`; `none` is a panic.  A child span passes the address of its
embedded span, which a nil pointer does not have. -/
def SpanValue.receiver : SpanValue → Option (Option DymSpan)
  | .span .absent => none
  | .span (.pointer p) => some p
  | .childSpan .absent => none
  | .childSpan (.pointer p) => p.map fun c => some c.toDymSpan

/-- Who has a pointer of the host: the host, or a child span, named by its place among the values. -/
inductive SpanOwner
  | host
  | child (i : ℕ)
  deriving DecidableEq, Repr

/-- The values a filter holds and the spans of the host.  `calls` are the calls to the host, each with
whether its pointer was good then, and `finishes` the values whose `Finish` called the host. -/
structure Spans where
  hostPluginPtr : ℕ
  values : List SpanValue := []
  live : ℕ → Option SpanOwner := fun _ => none
  calls : List (HostCall × Bool) := []
  finishes : List ℕ := []
  panicked : Bool := false

namespace Spans

/-- Is the pointer of a call not nil, and a span, or for `finish` a child span, that is not finished? -/
def isGood (s : Spans) (c : HostCall) : Bool :=
  c.span != 0 &&
    match c.callback, s.live c.span with
    | _, none => false
    | .finish, some .host => false
    | _, some _ => true

/-- A call to the host is made. -/
def issue (s : Spans) : Option HostCall → Spans
  | none => s
  | some c => { s with calls := s.calls ++ [(c, s.isGood c)] }

/-- `GetActiveSpan`, where the host answers `spanPtr`. -/
def getActiveSpan (s : Spans) (spanPtr : ℕ) : Spans :=
  if spanPtr = 0 then { s with values := s.values ++ [.span .absent] }
  else
    { s with
      values := s.values ++
        [.span (.pointer (some { hostPluginPtr := s.hostPluginPtr, spanPtr := spanPtr }))]
      live := Function.update s.live spanPtr (some .host) }

/-- `SpawnChild` on a receiver; a child of the host belongs to the value that is returned. -/
def onSpawnChild (s : Spans) (receiver : Option DymSpan) (operation : GoString) (childPtr : ℕ) :
    Spans :=
  let r := DymSpan.spawnChild receiver operation childPtr
  { s.issue r.1 with
    values := s.values ++ [.childSpan r.2]
    live :=
      if r.1.isSome && childPtr != 0 then
        Function.update s.live childPtr (some (.child s.values.length))
      else s.live }

/-- `Finish` of the value at `i`; the host releases the pointer. -/
def onFinish (s : Spans) (i : ℕ) (p : Option DymChildSpan) : Spans :=
  let r := DymChildSpan.finish p
  match r.1 with
  | none => { s with values := s.values.set i (.childSpan (.pointer r.2)) }
  | some c =>
    { s.issue r.1 with
      values := s.values.set i (.childSpan (.pointer r.2))
      live := Function.update s.live c.span none
      finishes := s.finishes ++ [i] }

/-- The call to the host of a method that changes no object. -/
def hostCall (receiver : Option DymSpan) : Method → Option HostCall
  | .setTag key value => DymSpan.setTag receiver key value
  | .setOperation operation => DymSpan.setOperation receiver operation
  | .log event => DymSpan.log receiver event
  | .setSampled sampled => DymSpan.setSampled receiver sampled
  | .getBaggage key ret valueView => (DymSpan.getBaggage receiver key ret valueView).1
  | .setBaggage key value => DymSpan.setBaggage receiver key value
  | .getTraceID ret valueView => (DymSpan.getTraceID receiver ret valueView).1
  | .getSpanID ret valueView => (DymSpan.getSpanID receiver ret valueView).1
  | .spawnChild _ _ | .finish => none

/-- A method is called on the value `v` at `i`; `none` where `v` has no such method, or where the host
would give out a pointer that somebody has. -/
def onMethod (s : Spans) (i : ℕ) (v : SpanValue) : Method → Option Spans
  | .finish =>
    match v with
    | .span _ => none
    | .childSpan .absent => some { s with panicked := true }
    | .childSpan (.pointer p) => some (s.onFinish i p)
  | .spawnChild operation childPtr =>
    match v.receiver with
    | none => some { s with panicked := true }
    | some receiver =>
      if childPtr = 0 ∨ s.live childPtr = none then
        some (s.onSpawnChild receiver operation childPtr)
      else none
  | m =>
    match v.receiver with
    | none => some { s with panicked := true }
    | some receiver => some (s.issue (hostCall receiver m))

/-- What the code of a stream does with spans. -/
inductive Label
  | getActiveSpan (spanPtr : ℕ)
  | call (i : ℕ) (m : Method)

/-- One step.  The active span is none of the module's spans, and a panic is the end. -/
def step (s : Spans) : Label → Option Spans
  | .getActiveSpan spanPtr =>
    if s.panicked then none
    else if s.live spanPtr = none ∨ s.live spanPtr = some .host then some (s.getActiveSpan spanPtr)
    else none
  | .call i m => if s.panicked then none else s.values[i]?.bind fun v => s.onMethod i v m

/-- No method has panicked, every call to the host had a good pointer, and no value has finished its
child twice. -/
structure Safe (s : Spans) : Prop where
  panicked : s.panicked = false
  good : ∀ c ∈ s.calls, c.2 = true
  finishes : s.finishes.Nodup

end Spans

/-! ## Spans as a filter sees them -/

/-- What a filter can know of a span it asked for. -/
inductive Held
  | nothing
  | running
  | finished
  deriving DecidableEq, Repr

/-- What the filter's calls and the host's answers make of it: a child is there if its parent was, not
finished, and the host gave one. -/
def Held.next (held : List Held) : Spans.Label → Option (List Held)
  | .getActiveSpan spanPtr => some (held ++ [if spanPtr = 0 then .nothing else .running])
  | .call i (.spawnChild _ childPtr) =>
    some (held ++ [if held[i]? = some .running ∧ childPtr ≠ 0 then .running else .nothing])
  | .call i .finish => some (held.set i .finished)
  | .call _ _ => some held

/-- The step calls no method on a span that is not there. -/
def Held.OnSpan (held : List Held) : Spans.Label → Prop
  | .getActiveSpan _ => True
  | .call i _ => held[i]? ≠ some .nothing

instance Held.decidableOnSpan (held : List Held) : ∀ l, Decidable (Held.OnSpan held l)
  | .getActiveSpan _ => isTrue trivial
  | .call i _ => inferInstanceAs (Decidable (held[i]? ≠ some .nothing))

/-- What a value is to the filter that holds it. -/
def SpanValue.held : SpanValue → Held
  | .span .absent => .nothing
  | .span (.pointer _) => .running
  | .childSpan .absent => .nothing
  | .childSpan (.pointer none) => .finished
  | .childSpan (.pointer (some c)) => if c.childPtr = 0 then .finished else .running

@[simp] lemma SpanValue.held_childSpan_absent : (SpanValue.childSpan .absent).held = .nothing := rfl

@[simp] lemma SpanValue.held_childSpan (c : DymChildSpan) :
    (SpanValue.childSpan (.pointer (some c))).held =
      if c.childPtr = 0 then .finished else .running := rfl

/-- The value at `i` has a pointer that is its own, or none. -/
def SpanValue.Good (live : ℕ → Option SpanOwner) (i : ℕ) : SpanValue → Prop
  | .span .absent | .childSpan .absent => True
  | .span (.pointer p) => ∃ x, p = some x ∧ x.spanPtr ≠ 0 ∧ live x.spanPtr = some .host
  | .childSpan (.pointer p) =>
    ∃ c, p = some c ∧ c.spanPtr = c.childPtr ∧
      (c.childPtr ≠ 0 → live c.childPtr = some (.child i))

namespace SpanValue

variable {live live' : ℕ → Option SpanOwner} {i j : ℕ} {v : SpanValue}

/-- A value keeps its pointer while only the child at another place loses one. -/
lemma Good.mono (h : v.Good live i) (hij : i ≠ j)
    (hlive : ∀ ptr o, live ptr = some o → o ≠ .child j → live' ptr = some o) : v.Good live' i := by
  match v with
  | .span .absent => trivial
  | .childSpan .absent => trivial
  | .span (.pointer p) =>
      obtain ⟨x, hp, hne, hx⟩ := h
      exact ⟨x, hp, hne, hlive _ _ hx (by simp)⟩
  | .childSpan (.pointer p) =>
      obtain ⟨c, hp, hspan, hc⟩ := h
      exact ⟨c, hp, hspan, fun hne => hlive _ _ (hc hne) (by simpa using hij)⟩

/-- The receiver of a method: none for the nil interface, a nil span for a finished child, and else a
span of the host. -/
lemma Good.receiver_cases (h : v.Good live i) :
    v.receiver = none ∧ v.held = .nothing ∨
      ∃ x, v.receiver = some (some x) ∧
        (x.spanPtr = 0 ∧ v.held = .finished ∨
          x.spanPtr ≠ 0 ∧ live x.spanPtr ≠ none ∧ v.held = .running) := by
  match v with
  | .span .absent => exact .inl ⟨rfl, rfl⟩
  | .childSpan .absent => exact .inl ⟨rfl, rfl⟩
  | .span (.pointer p) =>
      obtain ⟨x, rfl, hne, hx⟩ := h
      exact .inr ⟨x, rfl, .inr ⟨hne, by simp [hx], rfl⟩⟩
  | .childSpan (.pointer p) =>
      obtain ⟨c, rfl, hspan, hc⟩ := h
      refine .inr ⟨c.toDymSpan, rfl, ?_⟩
      by_cases hzero : c.childPtr = 0
      · exact .inl ⟨hspan.trans hzero, by simp [held, hzero]⟩
      · exact .inr ⟨hspan ▸ hzero, by simp [hspan, hc hzero], by simp [held, hzero]⟩

end SpanValue

namespace Spans

/-- In every run: a value has a good pointer or none, every call had one, and a child whose `Finish`
called the host has none left. -/
structure Sound (s : Spans) : Prop where
  value : ∀ (i : ℕ) (v : SpanValue), s.values[i]? = some v → v.Good s.live i
  good : ∀ c ∈ s.calls, c.2 = true
  nodup : s.finishes.Nodup
  finished : ∀ i ∈ s.finishes, ∃ v, s.values[i]? = some v ∧ v.held = .finished

lemma sound_start (hostPluginPtr : ℕ) : ({ hostPluginPtr := hostPluginPtr } : Spans).Sound where
  value i v h := by simp at h
  good c h := by simp at h
  nodup := List.nodup_nil
  finished i h := by simp at h

section

variable {s s' : Spans} {i : ℕ} {v : SpanValue} {l : Label}

lemma Sound.issue (hI : s.Sound) {o : Option HostCall} (ho : ∀ c, o = some c → s.isGood c = true) :
    (s.issue o).Sound := by
  cases o with
  | none => exact hI
  | some c =>
      refine ⟨hI.value, fun c' hc' => ?_, hI.nodup, hI.finished⟩
      simp only [Spans.issue, List.mem_append, List.mem_singleton] at hc'
      rcases hc' with hc' | rfl
      · exact hI.good c' hc'
      · exact ho c rfl

lemma isGood_of_live {c : HostCall} (hne : c.span ≠ 0) (hlive : s.live c.span ≠ none)
    (hc : c.callback ≠ .finish) : s.isGood c = true := by
  obtain ⟨o, ho⟩ := Option.ne_none_iff_exists'.mp hlive
  obtain ⟨span, callback⟩ := c
  simp only at hne ho hc
  cases callback <;> simp_all [isGood]

/-- Every method that changes no object calls the host like the others. -/
lemma hostCall_eq (receiver : Option DymSpan) (m : Method) :
    hostCall receiver m = none ∨
      ∃ callback, (∀ x, callback x ≠ .finish) ∧
        hostCall receiver m = DymSpan.call receiver callback := by
  cases m with
  | setTag key value => exact .inr ⟨_, by simp, rfl⟩
  | setOperation operation => exact .inr ⟨_, by simp, rfl⟩
  | log event => exact .inr ⟨_, by simp, rfl⟩
  | setSampled sampled => exact .inr ⟨_, by simp, rfl⟩
  | getBaggage key ret valueView => exact .inr ⟨_, by simp, DymSpan.read_fst _ _ _ _⟩
  | setBaggage key value => exact .inr ⟨_, by simp, rfl⟩
  | getTraceID ret valueView => exact .inr ⟨_, by simp, DymSpan.read_fst _ _ _ _⟩
  | getSpanID ret valueView => exact .inr ⟨_, by simp, DymSpan.read_fst _ _ _ _⟩
  | spawnChild operation childPtr => exact .inl rfl
  | finish => exact .inl rfl

lemma hostCall_eq_some {x : DymSpan} {m : Method} {c : HostCall}
    (h : hostCall (some x) m = some c) :
    c.span = x.spanPtr ∧ x.spanPtr ≠ 0 ∧ c.callback ≠ .finish := by
  rcases hostCall_eq (some x) m with hnone | ⟨callback, hcallback, hcall⟩
  · rw [hnone] at h
    exact absurd h (by simp)
  · simp only [hcall, DymSpan.call, Option.ite_none_left_eq_some, Option.some.injEq] at h
    obtain ⟨hne, rfl⟩ := h
    exact ⟨rfl, hne, hcallback x⟩

@[simp] lemma issue_values (o : Option HostCall) : (s.issue o).values = s.values := by
  cases o <;> rfl

@[simp] lemma issue_panicked (o : Option HostCall) : (s.issue o).panicked = s.panicked := by
  cases o <;> rfl

@[simp] lemma issue_finishes (o : Option HostCall) : (s.issue o).finishes = s.finishes := by
  cases o <;> rfl

/-- A new value takes no pointer from the values of before. -/
lemma Sound.add (hI : s.Sound) {live : ℕ → Option SpanOwner}
    (hlive : ∀ ptr o, s.live ptr = some o → live ptr = some o) (hv : v.Good live s.values.length) :
    ({ s with values := s.values ++ [v], live := live } : Spans).Sound := by
  refine ⟨fun j w hw => ?_, hI.good, hI.nodup, fun j hj => ?_⟩
  · rcases Nat.lt_trichotomy j s.values.length with hj | rfl | hj
    · rw [List.getElem?_append_left hj] at hw
      exact (hI.value j w hw).mono (Nat.ne_of_lt hj) fun ptr o ho _ => hlive ptr o ho
    · rw [List.getElem?_concat_length] at hw
      exact Option.some.inj hw ▸ hv
    · rw [List.getElem?_eq_none (by simp only [List.length_append, List.length_singleton]; omega)] at hw
      exact absurd hw (by simp)
  · obtain ⟨w, hw, hheld⟩ := hI.finished j hj
    exact ⟨w, by rw [List.getElem?_append_left (List.getElem?_eq_some_iff.mp hw).1, hw], hheld⟩

lemma Sound.getActiveSpan (hI : s.Sound) {spanPtr : ℕ}
    (hhost : s.live spanPtr = none ∨ s.live spanPtr = some .host) :
    (s.getActiveSpan spanPtr).Sound := by
  by_cases hzero : spanPtr = 0
  · rw [Spans.getActiveSpan, if_pos hzero]
    exact hI.add (fun _ _ h => h) trivial
  · rw [Spans.getActiveSpan, if_neg hzero]
    refine hI.add (fun ptr o ho => ?_) ⟨_, rfl, hzero, by simp⟩
    by_cases hptr : ptr = spanPtr
    · subst hptr
      rcases hhost with hnone | hhost
      · exact absurd (hnone.symm.trans ho) (by simp)
      · rw [Function.update_self, ← hhost, ho]
    · rw [Function.update_of_ne hptr, ho]

/-- A child is spawned by a span that is there, and not finished, or the host is not called. -/
lemma Sound.onSpawnChild (hI : s.Sound) {x : DymSpan} (hx : x.spanPtr ≠ 0 → s.live x.spanPtr ≠ none)
    (operation : GoString) {childPtr : ℕ} (hfree : childPtr = 0 ∨ s.live childPtr = none) :
    (s.onSpawnChild (some x) operation childPtr).Sound := by
  by_cases hzero : x.spanPtr = 0
  · simp only [Spans.onSpawnChild, DymSpan.spawnChild, hzero, if_true, Option.isSome_none,
      Bool.false_and, Bool.false_eq_true, if_false, Spans.issue]
    exact hI.add (fun _ _ h => h) trivial
  · have hissue : (s.issue (some ⟨x.spanPtr, .spawnChild x.hostPluginPtr operation⟩)).Sound :=
      hI.issue fun c hc => Option.some.inj hc ▸ isGood_of_live hzero (hx hzero) (by simp)
    by_cases hchild : childPtr = 0
    · simp only [Spans.onSpawnChild, DymSpan.spawnChild, hzero, hchild, if_true, if_false,
        Option.isSome_some, Bool.true_and, bne_self_eq_false, Bool.false_eq_true]
      exact hissue.add (fun _ _ h => h) trivial
    · have hnone : s.live childPtr = none := hfree.resolve_left hchild
      simp only [Spans.onSpawnChild, DymSpan.spawnChild, hzero, hchild, if_false,
        Option.isSome_some, Bool.true_and, bne_iff_ne, ne_eq, not_false_eq_true, if_true]
      refine hissue.add (fun ptr o ho => ?_) ⟨_, rfl, rfl, fun _ => by simp [Spans.issue]⟩
      have hptr : ptr ≠ childPtr := by
        rintro rfl
        exact absurd (hnone.symm.trans ho) (by simp)
      rw [Function.update_of_ne hptr]
      exact ho

/-- Finishing a child takes the pointer from it, and from no other value. -/
lemma Sound.onFinish (hI : s.Sound) {p : Option DymChildSpan}
    (hv : s.values[i]? = some (.childSpan (.pointer p))) : (s.onFinish i p).Sound := by
  obtain ⟨c, rfl, hspan, hc⟩ := hI.value i _ hv
  have hi : i < s.values.length := (List.getElem?_eq_some_iff.mp hv).1
  by_cases hzero : c.childPtr = 0
  · have hset : s.values.set i (.childSpan (.pointer (some c))) = s.values := by
      rw [← (List.getElem?_eq_some_iff.mp hv).2, List.set_getElem_self]
    simpa only [Spans.onFinish, DymChildSpan.finish, hzero, if_true, hset] using hI
  · simp only [Spans.onFinish, DymChildSpan.finish, hzero, if_false]
    have hgood : s.isGood ⟨c.childPtr, .finish⟩ = true := by simp [isGood, hzero, hc hzero]
    have hnew : i ∉ s.finishes := by
      intro hmem
      obtain ⟨w, hw, hheld⟩ := hI.finished i hmem
      rw [← Option.some.inj (hv.symm.trans hw)] at hheld
      simp [SpanValue.held, hzero] at hheld
    refine ⟨fun j w hw => ?_, (hI.issue fun c' hc' => Option.some.inj hc' ▸ hgood).good, ?_,
      fun j hj => ?_⟩
    · by_cases hj : j = i
      · subst hj
        rw [List.getElem?_set_self hi] at hw
        obtain rfl := Option.some.inj hw
        exact ⟨_, rfl, rfl, fun h => absurd rfl h⟩
      · rw [List.getElem?_set_ne (Ne.symm hj)] at hw
        refine (hI.value j w hw).mono hj fun ptr o ho hne => ?_
        have hptr : ptr ≠ c.childPtr := by
          rintro rfl
          exact hne (Option.some.inj (ho.symm.trans (hc hzero)))
        exact (Function.update_of_ne hptr _ _).trans ho
    · exact List.nodup_append.mpr ⟨hI.nodup, List.nodup_singleton i, by
        rintro a ha b hb rfl
        exact hnew (List.mem_singleton.mp hb ▸ ha)⟩
    · by_cases hji : j = i
      · subst hji
        exact ⟨_, List.getElem?_set_self hi, by simp [SpanValue.held]⟩
      · rw [List.mem_append, List.mem_singleton] at hj
        rw [List.getElem?_set_ne (Ne.symm hji)]
        exact hI.finished j (hj.resolve_right hji)

lemma Sound.panic (hI : s.Sound) : ({ s with panicked := true } : Spans).Sound :=
  ⟨hI.value, hI.good, hI.nodup, hI.finished⟩

/-- What a call of a method comes to: it panics, on the nil interface, or it goes on as the filter
expects. -/
structure Called (s : Spans) (i : ℕ) (v : SpanValue) (m : Method) (s' : Spans) : Prop where
  sound : s'.Sound
  outcome : v.held = .nothing ∧ s'.panicked = true ∨
    v.held ≠ .nothing ∧ s'.panicked = false ∧
      Held.next (s.values.map SpanValue.held) (.call i m) = some (s'.values.map SpanValue.held)

lemma Sound.called_panic (hI : s.Sound) (hnothing : v.held = .nothing) (m : Method) :
    s.Called i v m { s with panicked := true } :=
  ⟨hI.panic, .inl ⟨hnothing, rfl⟩⟩

lemma Sound.called_issue (hI : s.Sound) (hpanicked : s.panicked = false)
    (hv : s.values[i]? = some v) {m : Method}
    (hm : s.onMethod i v m =
      match v.receiver with
      | none => some { s with panicked := true }
      | some receiver => some (s.issue (hostCall receiver m)))
    (hnext : ∀ held, Held.next held (.call i m) = some held) (h : s.onMethod i v m = some s') :
    s.Called i v m s' := by
  rw [hm] at h
  rcases (hI.value i v hv).receiver_cases with ⟨hr, hnothing⟩ | ⟨x, hr, hx⟩
  · simp only [hr, Option.some.injEq] at h
    exact h ▸ hI.called_panic hnothing m
  · simp only [hr, Option.some.injEq] at h
    subst h
    refine ⟨hI.issue fun c hc => ?_, .inr ⟨?_, by simpa using hpanicked, by simp [hnext]⟩⟩
    · obtain ⟨hspan, hne, hfinish⟩ := hostCall_eq_some hc
      refine isGood_of_live (hspan ▸ hne) (hspan ▸ ?_) hfinish
      exact (hx.resolve_left fun h => hne h.1).2.1
    · rcases hx with ⟨-, hheld⟩ | ⟨-, -, hheld⟩ <;> simp [hheld]

/-- `SpawnChild`: the child is there if the receiver was, not finished, and the host gave one. -/
lemma Sound.called_spawnChild (hI : s.Sound) (hpanicked : s.panicked = false)
    (hv : s.values[i]? = some v) {operation : GoString} {childPtr : ℕ}
    (h : s.onMethod i v (.spawnChild operation childPtr) = some s') :
    s.Called i v (.spawnChild operation childPtr) s' := by
  rcases (hI.value i v hv).receiver_cases with ⟨hr, hnothing⟩ | ⟨x, hr, hx⟩
  · simp only [onMethod, hr, Option.some.injEq] at h
    exact h ▸ hI.called_panic hnothing _
  · simp only [onMethod, hr, Option.ite_none_right_eq_some, Option.some.injEq] at h
    obtain ⟨hfree, rfl⟩ := h
    have hlive : x.spanPtr ≠ 0 → s.live x.spanPtr ≠ none := fun hne =>
      (hx.resolve_left fun h => hne h.1).2.1
    refine ⟨hI.onSpawnChild hlive operation hfree, .inr ⟨?_, ?_, ?_⟩⟩
    · rcases hx with ⟨-, hheld⟩ | ⟨-, -, hheld⟩ <;> simp [hheld]
    · simpa [Spans.onSpawnChild] using hpanicked
    · rcases hx with ⟨hzero, hheld⟩ | ⟨hne, -, hheld⟩
      · simp [Held.next, hv, hheld, Spans.onSpawnChild, DymSpan.spawnChild, hzero]
      · by_cases hchild : childPtr = 0
        · simp [Held.next, hv, hheld, Spans.onSpawnChild, DymSpan.spawnChild, hne, hchild]
        · simp [Held.next, hv, hheld, Spans.onSpawnChild, DymSpan.spawnChild, hne, hchild]

/-- `Finish`, of a child span. -/
lemma Sound.called_finish (hI : s.Sound) (hpanicked : s.panicked = false)
    (hv : s.values[i]? = some v) (h : s.onMethod i v .finish = some s') :
    s.Called i v .finish s' := by
  match v, hv with
  | .span _, _ => exact absurd h (by simp [onMethod])
  | .childSpan .absent, _ =>
      simp only [onMethod, Option.some.injEq] at h
      exact h ▸ hI.called_panic rfl _
  | .childSpan (.pointer p), hv =>
      simp only [onMethod, Option.some.injEq] at h
      subst h
      obtain ⟨c, rfl, -, -⟩ := hI.value i _ hv
      refine ⟨hI.onFinish hv, .inr ⟨?_, ?_, ?_⟩⟩
      · rw [SpanValue.held]
        split_ifs <;> simp
      · by_cases hzero : c.childPtr = 0
        · simpa [Spans.onFinish, DymChildSpan.finish, hzero] using hpanicked
        · simpa [Spans.onFinish, DymChildSpan.finish, hzero] using hpanicked
      · by_cases hzero : c.childPtr = 0
        · simp [Held.next, Spans.onFinish, DymChildSpan.finish, hzero, List.map_set, SpanValue.held]
        · simp [Held.next, Spans.onFinish, DymChildSpan.finish, hzero, List.map_set, SpanValue.held]

lemma Sound.onMethod (hI : s.Sound) (hpanicked : s.panicked = false)
    (hv : s.values[i]? = some v) {m : Method} (h : s.onMethod i v m = some s') :
    s.Called i v m s' := by
  cases m with
  | setTag key value => exact hI.called_issue hpanicked hv rfl (fun _ => rfl) h
  | setOperation operation => exact hI.called_issue hpanicked hv rfl (fun _ => rfl) h
  | log event => exact hI.called_issue hpanicked hv rfl (fun _ => rfl) h
  | setSampled sampled => exact hI.called_issue hpanicked hv rfl (fun _ => rfl) h
  | getBaggage key ret valueView => exact hI.called_issue hpanicked hv rfl (fun _ => rfl) h
  | setBaggage key value => exact hI.called_issue hpanicked hv rfl (fun _ => rfl) h
  | getTraceID ret valueView => exact hI.called_issue hpanicked hv rfl (fun _ => rfl) h
  | getSpanID ret valueView => exact hI.called_issue hpanicked hv rfl (fun _ => rfl) h
  | spawnChild operation childPtr => exact hI.called_spawnChild hpanicked hv h
  | finish => exact hI.called_finish hpanicked hv h

/-- **One step**: the spans stay sound, and it panics exactly when it calls a method on a span that is
not there.  Otherwise its effect is the one the filter expects. -/
lemma Sound.step (hI : s.Sound) (h : s.step l = some s') :
    s'.Sound ∧ s.panicked = false ∧
      (¬ Held.OnSpan (s.values.map SpanValue.held) l ∧ s'.panicked = true ∨
        Held.OnSpan (s.values.map SpanValue.held) l ∧ s'.panicked = false ∧
          Held.next (s.values.map SpanValue.held) l = some (s'.values.map SpanValue.held)) := by
  cases l with
  | getActiveSpan spanPtr =>
      simp only [Spans.step, Option.ite_none_left_eq_some, Option.ite_none_right_eq_some,
        Option.some.injEq, Bool.not_eq_true] at h
      obtain ⟨hpanicked, hhost, rfl⟩ := h
      refine ⟨hI.getActiveSpan hhost, hpanicked, .inr ⟨trivial, ?_, ?_⟩⟩
      · rw [Spans.getActiveSpan]
        split_ifs <;> exact hpanicked
      · by_cases hzero : spanPtr = 0 <;>
          simp [Held.next, Spans.getActiveSpan, hzero, SpanValue.held]
  | call i m =>
      simp only [Spans.step, Option.ite_none_left_eq_some, Bool.not_eq_true,
        Option.bind_eq_some_iff] at h
      obtain ⟨hpanicked, v, hv, h⟩ := h
      obtain ⟨hsound, houtcome⟩ := hI.onMethod hpanicked hv h
      refine ⟨hsound, hpanicked, ?_⟩
      simpa only [Held.OnSpan, List.getElem?_map, hv, Option.map_some, ne_eq, Option.some.injEq,
        not_not] using houtcome

lemma Sound.safe_iff_panicked (hI : s.Sound) : s.Safe ↔ s.panicked = false :=
  ⟨fun h => h.panicked, fun h => ⟨h, hI.good, hI.nodup⟩⟩

lemma Sound.safe_step (hI : s.Sound) (h : s.step l = some s') :
    s'.Safe ↔ s.Safe ∧ Held.OnSpan (s.values.map SpanValue.held) l := by
  obtain ⟨hI', hpanicked, houtcome⟩ := hI.step h
  rw [hI'.safe_iff_panicked, hI.safe_iff_panicked, and_iff_right hpanicked]
  rcases houtcome with ⟨hno, hp⟩ | ⟨hyes, hp, -⟩
  · simp [hno, hp]
  · simp [hyes, hp]

lemma Sound.next_step (hI : s.Sound) (hon : Held.OnSpan (s.values.map SpanValue.held) l)
    (h : s.step l = some s') :
    Held.next (s.values.map SpanValue.held) l = some (s'.values.map SpanValue.held) :=
  ((hI.step h).2.2.resolve_left fun hno => hno.1 hon).2.2

end

/-- In every run, panic or not, the pointers passed to the host are good and a child is finished once. -/
theorem calls_good {hostPluginPtr : ℕ} {ls : List Label} {s' : Spans}
    (hrun : run step { hostPluginPtr := hostPluginPtr } ls = some s') :
    (∀ c ∈ s'.calls, c.2 = true) ∧ s'.finishes.Nodup := by
  have hI : s'.Sound :=
    run_invariant (fun _ _ _ hI h => (Sound.step hI h).1) (sound_start hostPluginPtr) hrun
  exact ⟨hI.good, hI.nodup⟩

/-- **A filter panics on a span in exactly the runs in which it calls a method on a span that the host
did not give, or that it asked a finished span for.**  The rest of `Safe` holds in every run. -/
theorem safe_iff {hostPluginPtr : ℕ} {ls : List Label} {s' : Spans}
    (hrun : run step { hostPluginPtr := hostPluginPtr } ls = some s') :
    s'.Safe ↔ Along Held.next Held.OnSpan [] ls := by
  have hrunSound : s'.Safe ↔ ({ hostPluginPtr := hostPluginPtr } : Spans).Safe ∧
      Along step (fun s l => Held.OnSpan (s.values.map SpanValue.held) l) _ ls :=
    run_iff_along (fun _ _ _ hI h => (hI.step h).1) (fun _ _ _ hI h => hI.safe_step h)
      (sound_start hostPluginPtr) hrun
  rw [hrunSound, and_iff_right ((sound_start hostPluginPtr).safe_iff_panicked.mpr rfl)]
  exact along_iff_of_simulation (R := fun s held => s.Sound ∧ held = s.values.map SpanValue.held)
    (fun _ _ _ _ hR hC h => ⟨_, hR.2 ▸ hR.1.next_step hC h, (hR.1.step h).1, rfl⟩)
    (fun _ _ _ _ hR _ => by rw [hR.2]) ⟨sound_start hostPluginPtr, rfl⟩ hrun

/-- The active span has a child, which is used and finished, and then used and finished again. -/
theorem safe_iff_afterFinish :
    ∃ s', run step { hostPluginPtr := 1 }
        [.getActiveSpan 8, .call 0 (.spawnChild [] 16), .call 1 (.setSampled true), .call 1 .finish,
          .call 1 (.setSampled false), .call 1 .finish] = some s' ∧ s'.Safe :=
  Exists.imp (fun _ h => ⟨h, (safe_iff h).mpr (by decide)⟩) ⟨_, rfl⟩

/-- There is no tracing, and the filter sets a tag on its active span. -/
theorem noTracing_panics :
    ∃ s', run step { hostPluginPtr := 1 } [.getActiveSpan 0, .call 0 (.setTag [] [])] = some s' ∧
      ¬ s'.Safe :=
  ⟨_, rfl, fun h => absurd h.panicked (by decide)⟩

end Spans

end Luwes.AbiImpl
