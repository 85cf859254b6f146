import Luwes.Lib.LabelledRun
import Luwes.Shared.Base
import Mathlib.Logic.Function.Basic

/-!
# What `Do` returns (`sahl/do.go`)

`Do` hands a callout to the worker thread and blocks until the done event has been sent over a channel.
What is sent is `HTTPCalloutResponse`, whose headers and body are pointers into the memory of the host,
"guaranteed to be valid until the end of this event hook" (`abi.h`).  The hook sends and returns; the
goroutine wakes up when it likes.

This model has both threads and the memory.  Everywhere else in the development a buffer stands for
its bytes; here it is an address and a length, and a read finds a byte only as long as the hook
runs.  A read that comes later finds whatever the host has put there, and the results quantify over it.

So every byte that is read is the one delivered, whatever the host does with its memory, in exactly the
runs in which every read happens before the hook returns.
-/

namespace Luwes.Sahl.DoContents

open LabelledRun

/-! ## Buffers as addresses -/

/-- `envoy_dynamic_module_type_envoy_buffer`; `none` is a null pointer. -/
structure EnvoyBuffer where
  ptr : Option ℕ
  length : ℕ
  deriving DecidableEq, Repr

/-- `envoy_dynamic_module_type_envoy_http_header`. -/
structure EnvoyHttpHeader where
  keyPtr : Option ℕ
  keyLength : ℕ
  valuePtr : Option ℕ
  valueLength : ℕ
  deriving DecidableEq, Repr

/-- `UnsafeEnvoyBuffer`, by its two fields. -/
structure BufferRef where
  ptr : Option ℕ
  len : ℕ
  deriving DecidableEq, Repr

/-- The address of the `k`-th byte. -/
def BufferRef.addr (b : BufferRef) (k : ℕ) : Option ℕ :=
  if k < b.len then b.ptr.map (· + k) else none

/-- `envoyHttpHeaderSliceToUnsafeHeaderSlice`: the pointers are copied. -/
def envoyHttpHeaderSliceToUnsafeHeaderSlice (buf : List EnvoyHttpHeader) :
    List (BufferRef × BufferRef) :=
  buf.map fun header =>
    (⟨header.keyPtr, header.keyLength⟩, ⟨header.valuePtr, header.valueLength⟩)

/-- `envoyBufferSliceToUnsafeEnvoyBufferSlice`. -/
def envoyBufferSliceToUnsafeEnvoyBufferSlice (buf : List EnvoyBuffer) : List BufferRef :=
  buf.map fun chunk => ⟨chunk.ptr, chunk.length⟩

/-- A byte of a response: the `k`-th of a header's key or value, or of a chunk of the body. -/
inductive BytePos
  | key (i k : ℕ)
  | value (i k : ℕ)
  | body (i k : ℕ)
  deriving DecidableEq, Repr

/-- The arguments of a done event, and what the memory of the host holds during the hook. -/
structure Delivery where
  result : HttpCalloutResult
  headers : List EnvoyHttpHeader
  chunks : List EnvoyBuffer
  memory : ℕ → UInt8

/-- The address of a byte the host delivers. -/
def Delivery.addr (d : Delivery) : BytePos → Option ℕ
  | .key i k => d.headers[i]?.bind fun h => if k < h.keyLength then h.keyPtr.map (· + k) else none
  | .value i k =>
    d.headers[i]?.bind fun h => if k < h.valueLength then h.valuePtr.map (· + k) else none
  | .body i k => d.chunks[i]?.bind fun c => if k < c.length then c.ptr.map (· + k) else none

/-- The byte the host delivers at a position. -/
def Delivery.byteAt (d : Delivery) (pos : BytePos) : Option UInt8 := (d.addr pos).map d.memory

/-- `HTTPCalloutResponse`; `call` is the ghost number of the callout whose memory it points into. -/
structure HTTPCalloutResponse where
  result : HttpCalloutResult
  headers : List (BufferRef × BufferRef)
  body : List BufferRef
  call : ℕ
  deriving DecidableEq, Repr

/-- The address of a byte that is read through the response. -/
def HTTPCalloutResponse.addr (r : HTTPCalloutResponse) : BytePos → Option ℕ
  | .key i k => r.headers[i]?.bind fun h => h.1.addr k
  | .value i k => r.headers[i]?.bind fun h => h.2.addr k
  | .body i k => r.body[i]?.bind fun b => b.addr k

/-- What the hook and the closure of `Do` make of a delivery. -/
def Delivery.response (d : Delivery) (call : ℕ) : HTTPCalloutResponse where
  result := d.result
  headers := envoyHttpHeaderSliceToUnsafeHeaderSlice d.headers
  body := envoyBufferSliceToUnsafeEnvoyBufferSlice d.chunks
  call := call

/-- The response points at what was delivered. -/
@[simp] lemma Delivery.addr_response (d : Delivery) (call : ℕ) (pos : BytePos) :
    (d.response call).addr pos = d.addr pos := by
  cases pos <;>
    · rw [HTTPCalloutResponse.addr, response, addr]
      dsimp only [envoyHttpHeaderSliceToUnsafeHeaderSlice, envoyBufferSliceToUnsafeEnvoyBufferSlice]
      rw [List.getElem?_map, Option.bind_map]
      rfl

/-! ## The state -/

/-- How far the callout of one call of `Do` has come. -/
inductive Phase
  /-- `Do` has not been called yet. -/
  | idle
  /-- The function that starts the callout is scheduled. -/
  | scheduled
  /-- The host has accepted the callout under an identifier. -/
  | inFlight (calloutID : ℕ)
  /-- The host has issued the done event. -/
  | delivered (d : Delivery)
  /-- The callout could not start. -/
  | failed

/-- The byte the host has delivered for the callout. -/
def Phase.byteAt (pos : BytePos) : Phase → Option UInt8
  | .delivered d => d.byteAt pos
  | _ => none

/-- What is sent over the channel, and what `Do` returns. -/
inductive Result
  | resp (r : HTTPCalloutResponse)
  | initErr (init : HttpCalloutInitResult)
  | cancelled
  deriving DecidableEq, Repr

/-- One call of `Do`. -/
structure Call where
  phase : Phase := .idle
  /-- What is in the channel, which has room for one result. -/
  ch : Option Result := none
  /-- What `Do` has returned. -/
  returned : Option Result := none

/-- A run of `envoy_dynamic_module_on_http_filter_http_callout_done`. -/
structure Hook where
  /-- The call whose callout is done. -/
  owner : ℕ
  /-- The call whose closure is going to send; `none` when there is nothing to send, or no more. -/
  target : Option ℕ
  deriving DecidableEq, Repr

/-- One byte read through a response. -/
structure Read where
  call : ℕ
  pos : BytePos
  /-- What the host has delivered there. -/
  delivered : Option UInt8
  /-- The byte that is found, or `none` if the memory is no longer the response's. -/
  found : Option UInt8
  deriving DecidableEq, Repr

/-- A request whose goroutine calls `Do`.  There is one worker thread, so one hook at a time. -/
structure State where
  calls : ℕ → Call := fun _ => {}
  /-- The identifiers the host has given out and not yet taken back. -/
  inFlight : List ℕ := []
  /-- `calloutCallbacks` of the handle; a callback is the closure of a call. -/
  calloutCallbacks : ℕ → Option ℕ := fun _ => none
  streamCompleted : Bool := false
  hook : Option Hook := none
  reads : List Read := []

namespace State

/-- Change one call. -/
def setCall (s : State) (i : ℕ) (c : Call) : State :=
  { s with calls := Function.update s.calls i c }

/-- What a read finds at an address of the memory that belongs to a callout. -/
def load (s : State) (call a : ℕ) : Option UInt8 :=
  match s.hook, (s.calls call).phase with
  | some h, .delivered d => if h.owner = call then some (d.memory a) else none
  | _, _ => none

/-! ## Steps -/

/-- Who moves.  A call of `Do` is named by its number. -/
inductive Label
  /-- The goroutine calls `Do`. -/
  | doCall (i : ℕ)
  /-- The worker runs the scheduled function; the host answers with a result and an identifier. -/
  | runTask (i : ℕ) (init : HttpCalloutInitResult) (calloutID : ℕ)
  /-- The host enters the hook. -/
  | enterHook (i : ℕ) (d : Delivery)
  /-- The closure sends over the channel. -/
  | send
  /-- The hook returns. -/
  | returnHook
  | streamComplete
  /-- `select` takes what is in the channel. -/
  | resume (i : ℕ)
  /-- `select` takes the cancelled context. -/
  | cancel (i : ℕ)
  /-- The goroutine reads a byte of the response `Do` returned. -/
  | read (i : ℕ) (pos : BytePos)

/-- The scheduled function. -/
def runTask (s : State) (i : ℕ) (init : HttpCalloutInitResult) (calloutID : ℕ) : Option State :=
  if init = .success then
    if calloutID ∈ s.inFlight then none
    else
      some { s.setCall i { s.calls i with phase := .inFlight calloutID } with
        inFlight := calloutID :: s.inFlight
        calloutCallbacks := Function.update s.calloutCallbacks calloutID (some i) }
  else some (s.setCall i { s.calls i with phase := .failed, ch := some (.initErr init) })

/-- The hook, up to the call of the callback.  After `stream_complete` it returns at once. -/
def enterHook (s : State) (i : ℕ) (d : Delivery) (calloutID : ℕ) : State :=
  let s' := { s.setCall i { s.calls i with phase := .delivered d } with
    inFlight := s.inFlight.erase calloutID }
  if s.streamCompleted then { s' with hook := some ⟨i, none⟩ }
  else
    { s' with
      calloutCallbacks := Function.update s.calloutCallbacks calloutID none
      hook := some ⟨i, s.calloutCallbacks calloutID⟩ }

/-- The closure of call `t` sends; a full channel blocks it. -/
def send (s : State) (owner t : ℕ) : Option State :=
  match (s.calls owner).phase, (s.calls t).ch with
  | .delivered d, none =>
    some { s.setCall t { s.calls t with ch := some (.resp (d.response owner)) } with
      hook := some ⟨owner, none⟩ }
  | _, _ => none

/-- A read of one byte; there is none at an address that is not the response's. -/
def read (s : State) (i : ℕ) (pos : BytePos) (r : HTTPCalloutResponse) : Option State :=
  (r.addr pos).map fun a =>
    { s with
      reads := s.reads ++ [⟨i, pos, (s.calls i).phase.byteAt pos, s.load r.call a⟩] }

/-- One step. -/
def step (s : State) : Label → Option State
  | .doCall i =>
    match (s.calls i).phase with
    | .idle => some (s.setCall i { s.calls i with phase := .scheduled })
    | _ => none
  | .runTask i init calloutID =>
    match (s.calls i).phase with
    | .scheduled => if s.hook = none ∧ !s.streamCompleted then s.runTask i init calloutID else none
    | _ => none
  | .enterHook i d =>
    match (s.calls i).phase with
    | .inFlight calloutID => if s.hook = none then some (s.enterHook i d calloutID) else none
    | _ => none
  | .send =>
    match s.hook with
    | some ⟨owner, some t⟩ => s.send owner t
    | _ => none
  | .returnHook =>
    match s.hook with
    | some ⟨_, none⟩ => some { s with hook := none }
    | _ => none
  | .streamComplete => if s.hook = none then some { s with streamCompleted := true } else none
  | .resume i =>
    match (s.calls i).ch, (s.calls i).returned with
    | some r, none => some (s.setCall i { s.calls i with ch := none, returned := some r })
    | _, _ => none
  | .cancel i =>
    match (s.calls i).phase, (s.calls i).returned with
    | .idle, _ => none
    | _, none => some (s.setCall i { s.calls i with returned := some .cancelled })
    | _, _ => none
  | .read i pos =>
    match (s.calls i).returned with
    | some (.resp r) => s.read i pos r
    | _ => none

/-! ## The invariant -/

end State

/-- Whatever response has been sent to the call points into what was delivered for it. -/
def Call.OwnResponse (i : ℕ) (c : Call) : Prop :=
  ∀ r, c.ch = some (.resp r) ∨ c.returned = some (.resp r) →
    ∃ d, c.phase = .delivered d ∧ r = d.response i

lemma Call.OwnResponse.of_phase {i : ℕ} {c : Call} (h : c.OwnResponse i) {p : Phase}
    (hp : c.phase = p) (hnot : ∀ d, p ≠ .delivered d) :
    ∀ r, c.ch ≠ some (.resp r) ∧ c.returned ≠ some (.resp r) := by
  intro r
  constructor <;> intro hr
  · obtain ⟨d, hd, -⟩ := h r (.inl hr)
    exact hnot d (hp.symm.trans hd)
  · obtain ⟨d, hd, -⟩ := h r (.inr hr)
    exact hnot d (hp.symm.trans hd)

namespace State

/-- The table and the channels keep the callouts apart. -/
structure Sound (s : State) : Prop where
  calls : ∀ i, (s.calls i).OwnResponse i
  table : s.streamCompleted = false → ∀ i calloutID, (s.calls i).phase = .inFlight calloutID →
    s.calloutCallbacks calloutID = some i ∧ calloutID ∈ s.inFlight
  hook : ∀ h t, s.hook = some h → h.target = some t → t = h.owner

lemma sound_new : ({} : State).Sound where
  calls i r h := by simp at h
  table _ i calloutID h := by simp at h
  hook h t hh := by simp at hh

/-- A change of one call that keeps its phase, or takes it to one that is not in flight. -/
lemma Sound.setCall {s : State} (hs : s.Sound) {i : ℕ} {c : Call} (hc : c.OwnResponse i)
    (hphase : ∀ calloutID, c.phase = .inFlight calloutID →
      (s.calls i).phase = .inFlight calloutID) : (s.setCall i c).Sound where
  calls := (Function.forall_update_iff s.calls fun j c => c.OwnResponse j).mpr
    ⟨hc, fun j _ => hs.calls j⟩
  table hopen := (Function.forall_update_iff s.calls fun j c => ∀ calloutID,
      c.phase = .inFlight calloutID → s.calloutCallbacks calloutID = some j ∧ calloutID ∈ s.inFlight).mpr
    ⟨fun calloutID h => hs.table hopen i calloutID (hphase calloutID h), fun j _ => hs.table hopen j⟩
  hook := hs.hook

lemma Sound.runTask {s s' : State} (hs : s.Sound) {i calloutID : ℕ} {init : HttpCalloutInitResult}
    (hphase : (s.calls i).phase = .scheduled) (h : s.runTask i init calloutID = some s') :
    s'.Sound := by
  have hnone := (hs.calls i).of_phase hphase (by simp)
  unfold State.runTask at h
  split_ifs at h with hinit hid
  · obtain rfl := Option.some.inj h
    constructor
    · refine (Function.forall_update_iff s.calls fun j c => c.OwnResponse j).mpr
        ⟨fun r hr => ?_, fun j _ => hs.calls j⟩
      exact absurd hr (not_or.mpr (hnone r))
    · intro hopen
      refine (Function.forall_update_iff s.calls fun j c => ∀ calloutID', c.phase = .inFlight calloutID' →
        Function.update s.calloutCallbacks calloutID (some i) calloutID' = some j ∧
          calloutID' ∈ calloutID :: s.inFlight).mpr ⟨?_, ?_⟩
      · rintro calloutID' ⟨⟩
        simp
      · intro j _ calloutID' hj
        obtain ⟨htable, hmem⟩ := hs.table hopen j calloutID' hj
        have hne : calloutID' ≠ calloutID := by
          rintro rfl
          exact hid hmem
        simp [hne, htable, hmem]
    · exact hs.hook
  · obtain rfl := Option.some.inj h
    refine hs.setCall (fun r hr => ?_) (by simp)
    rcases hr with hr | hr
    · simp at hr
    · exact absurd hr (hnone r).2

lemma Sound.enterHook {s : State} (hs : s.Sound) {i calloutID : ℕ} (d : Delivery)
    (hphase : (s.calls i).phase = .inFlight calloutID) : (s.enterHook i d calloutID).Sound := by
  have hnone := (hs.calls i).of_phase hphase (by simp)
  have hcalls : ∀ j, (Function.update s.calls i { s.calls i with phase := .delivered d } j).OwnResponse j :=
    (Function.forall_update_iff s.calls fun j c => c.OwnResponse j).mpr
      ⟨fun r hr => absurd hr (not_or.mpr (hnone r)), fun j _ => hs.calls j⟩
  unfold State.enterHook
  split_ifs with hdone
  · exact ⟨hcalls, fun hopen => absurd (hdone.symm.trans hopen) (by simp), by rintro h t ⟨⟩; simp⟩
  · have hopen : s.streamCompleted = false := by simpa using hdone
    refine ⟨hcalls, fun _ => ?_, ?_⟩
    · refine (Function.forall_update_iff s.calls fun j c => ∀ calloutID', c.phase = .inFlight calloutID' →
        Function.update s.calloutCallbacks calloutID none calloutID' = some j ∧
          calloutID' ∈ s.inFlight.erase calloutID).mpr ⟨by simp, ?_⟩
      intro j hne calloutID' hj
      obtain ⟨htable, hmem⟩ := hs.table hopen j calloutID' hj
      -- Two calls in flight have two identifiers.
      have hne' : calloutID' ≠ calloutID := by
        rintro rfl
        have hi := (hs.table hopen i calloutID' hphase).1
        exact hne (Option.some.inj (htable.symm.trans hi))
      exact ⟨by simp [hne', htable], (List.mem_erase_of_ne hne').mpr hmem⟩
    · rintro h t ⟨⟩ ht
      have hi := (hs.table hopen i calloutID hphase).1
      exact Option.some.inj (ht.symm.trans hi)

lemma Sound.send {s s' : State} (hs : s.Sound) {owner t : ℕ} (hhook : s.hook = some ⟨owner, some t⟩)
    (h : s.send owner t = some s') : s'.Sound := by
  obtain rfl : t = owner := hs.hook _ t hhook rfl
  unfold State.send at h
  split at h
  · rename_i d hphase hch
    obtain rfl := Option.some.inj h
    have hset := hs.setCall (i := t) (c := { s.calls t with ch := some (.resp (d.response t)) })
      (fun r hr => by
        rcases hr with hr | hr
        · exact ⟨d, hphase, by simpa using hr.symm⟩
        · exact hs.calls t r (.inr hr))
      (fun _ => id)
    exact ⟨hset.calls, hset.table, by rintro h t' ⟨⟩; simp⟩
  · simp at h

lemma sound_step {s s' : State} {l : Label} (hs : s.Sound) (h : s.step l = some s') : s'.Sound := by
  cases l with
  | doCall i =>
      simp only [step] at h
      split at h
      · rename_i hphase
        obtain rfl := Option.some.inj h
        have hnone := (hs.calls i).of_phase hphase (by simp)
        exact hs.setCall (fun r hr => absurd hr (not_or.mpr (hnone r))) (by simp)
      · simp at h
  | runTask i init calloutID =>
      simp only [step] at h
      split at h
      · rename_i hphase
        split_ifs at h
        exact hs.runTask hphase h
      · simp at h
  | enterHook i d =>
      simp only [step] at h
      split at h
      · rename_i calloutID hphase
        split_ifs at h
        obtain rfl := Option.some.inj h
        exact hs.enterHook d hphase
      · simp at h
  | send =>
      simp only [step] at h
      split at h
      · rename_i hhook
        exact hs.send hhook h
      · simp at h
  | returnHook =>
      simp only [step] at h
      split at h
      · obtain rfl := Option.some.inj h
        exact ⟨hs.calls, hs.table, by simp⟩
      · simp at h
  | streamComplete =>
      simp only [step] at h
      split_ifs at h
      obtain rfl := Option.some.inj h
      exact ⟨hs.calls, by simp, hs.hook⟩
  | resume i =>
      simp only [step] at h
      split at h
      · rename_i r hch hret
        obtain rfl := Option.some.inj h
        refine hs.setCall (fun r' hr' => ?_) (fun _ => id)
        rcases hr' with hr' | hr'
        · simp at hr'
        · exact hs.calls i r' (.inl (hch.trans hr'))
      · simp at h
  | cancel i =>
      simp only [step] at h
      split at h
      · simp at h
      · obtain rfl := Option.some.inj h
        refine hs.setCall (fun r hr => ?_) (fun _ => id)
        rcases hr with hr | hr
        · exact hs.calls i r (.inl hr)
        · simp at hr
      · simp at h
  | read i pos =>
      simp only [step] at h
      split at h
      · obtain ⟨a, -, rfl⟩ := Option.map_eq_some_iff.mp h
        exact ⟨hs.calls, hs.table, hs.hook⟩
      · simp at h

/-! ## What is read -/

/-- Every byte read through a response is the one the host delivered for that callout, whatever the
host puts into memory that has expired: `later k` is what the `k`-th read then finds. -/
def ReadsDelivered (s : State) : Prop :=
  ∀ (later : ℕ → UInt8) (k : ℕ) (r : Read), s.reads[k]? = some r →
    some (r.found.getD (later k)) = r.delivered

/-- The step does not read through a response whose hook has returned. -/
def ReadsInHook (s : State) : Label → Prop
  | .read i _ => s.hook.map (·.owner) = some i
  | _ => True

instance (s : State) : DecidablePred s.ReadsInHook := fun l => by
  cases l <;> unfold ReadsInHook <;> infer_instance

/-- A byte that has expired may be any other byte. -/
lemma byte_succ_ne (b : UInt8) : b + 1 ≠ b := by
  intro h
  have hnat := congrArg UInt8.toNat h
  have hlt := b.toNat_lt
  rw [UInt8.toNat_add] at hnat
  simp at hnat
  omega

lemma readsDelivered_append {s s' : State} {r : Read} (hreads : s'.reads = s.reads ++ [r]) :
    s'.ReadsDelivered ↔
      s.ReadsDelivered ∧ ∀ b : UInt8, some (r.found.getD b) = r.delivered := by
  simp only [ReadsDelivered, hreads]
  constructor
  · intro h
    refine ⟨fun later k r' hk => ?_, fun b => h (fun _ => b) s.reads.length r (by simp)⟩
    obtain ⟨hlt, -⟩ := List.getElem?_eq_some_iff.mp hk
    exact h later k r' (by rw [List.getElem?_append_left hlt, hk])
  · rintro ⟨hold, hnew⟩ later k r' hk
    rcases Nat.lt_or_ge k s.reads.length with hlt | hge
    · rw [List.getElem?_append_left hlt] at hk
      exact hold later k r' hk
    · rw [List.getElem?_append_right hge] at hk
      obtain rfl : r' = r := by simpa using List.mem_of_getElem? hk
      exact hnew (later k)

lemma reads_eq {s s' : State} {l : Label} (h : s.step l = some s')
    (hl : ∀ i pos, l ≠ .read i pos) : s'.reads = s.reads := by
  cases l with
  | read i pos => exact absurd rfl (hl i pos)
  | runTask i init calloutID =>
      simp only [step, runTask] at h
      split at h
      · split_ifs at h <;> (obtain rfl := Option.some.inj h; rfl)
      · simp at h
  | enterHook i d =>
      simp only [step, enterHook] at h
      split at h
      · split_ifs at h <;> (obtain rfl := Option.some.inj h; rfl)
      · simp at h
  | send =>
      simp only [step, send] at h
      split at h
      · split at h
        · obtain rfl := Option.some.inj h
          rfl
        · simp at h
      · simp at h
  | _ =>
      simp only [step] at h
      repeat' split at h
      all_goals first
        | (obtain rfl := Option.some.inj h; rfl)
        | simp at h

/-- A step keeps the promise exactly when it does not read after the hook. -/
lemma reads_step {s s' : State} {l : Label} (hs : s.Sound) (h : s.step l = some s') :
    s'.ReadsDelivered ↔ s.ReadsDelivered ∧ s.ReadsInHook l := by
  by_cases hl : ∃ i pos, l = .read i pos
  · obtain ⟨i, pos, rfl⟩ := hl
    simp only [step] at h
    split at h
    · rename_i r hret
      obtain ⟨a, ha, rfl⟩ := Option.map_eq_some_iff.mp h
      obtain ⟨d, hphase, rfl⟩ := hs.calls i r (.inr hret)
      have hbyte : (s.calls i).phase.byteAt pos = some (d.memory a) := by
        rw [Delivery.addr_response] at ha
        simp [hphase, Phase.byteAt, Delivery.byteAt, ha]
      rw [readsDelivered_append (s := s) rfl, hbyte]
      refine and_congr_right fun _ => ?_
      simp only [load, hphase, Delivery.response, ReadsInHook]
      cases hhook : s.hook with
      | none =>
          simp only [Option.map_none, reduceCtorEq, iff_false]
          intro hall
          exact byte_succ_ne (d.memory a) (Option.some.inj (hall _))
      | some hk =>
          by_cases howner : hk.owner = i
          · simp [howner]
          · simp only [howner, if_false, Option.map_some, Option.some.injEq, iff_false]
            intro hall
            exact byte_succ_ne (d.memory a) (hall _)
    · simp at h
  · have hreads := reads_eq h (by simpa using hl)
    have hin : s.ReadsInHook l := by
      cases l with
      | read i pos => exact absurd ⟨i, pos, rfl⟩ hl
      | _ => trivial
    simp only [ReadsDelivered, hreads, hin, and_true]

end State

/-! ## Whole runs -/

/-- **The exact condition.**  Whatever the host does with its memory, every byte read is the delivered
one, in exactly the runs in which every read happens before the hook of its response returns. -/
theorem readsDelivered_iff (ls : List State.Label) (s : State)
    (hrun : run State.step {} ls = some s) :
    s.ReadsDelivered ↔ Along State.step State.ReadsInHook {} ls := by
  have h := run_iff_along (P := State.ReadsDelivered) (fun _ _ _ => State.sound_step)
    (fun _ _ _ => State.reads_step) State.sound_new hrun
  rw [h]
  exact and_iff_right (by intro later k r hk; simp at hk)

/-- A done event whose body is the one byte at address 64. -/
def oneByte : Delivery where
  result := .success
  headers := []
  chunks := [⟨some 64, 1⟩]
  memory := fun _ => 42

/-- The hook returns, and then the goroutine wakes up and reads. -/
def readAfterHook : List State.Label :=
  [.doCall 0, .runTask 0 .success 7, .enterHook 0 oneByte, .send, .returnHook, .resume 0,
    .read 0 (.body 0 0)]

/-- The byte that is read need not be the one that was delivered. -/
theorem readAfterHook_stale :
    ¬ ∀ (ls : List State.Label) (s : State), run State.step {} ls = some s → s.ReadsDelivered := by
  intro h
  have hread := h readAfterHook _ rfl (fun _ => 0) 0 ⟨0, .body 0 0, some 42, none⟩ rfl
  exact absurd hread (by decide)

/-- The goroutine wakes up and reads while the hook still runs. -/
def readDuringHook : List State.Label :=
  [.doCall 0, .runTask 0 .success 7, .enterHook 0 oneByte, .send, .resume 0, .read 0 (.body 0 0),
    .returnHook]

/-- The condition evaluated on that run. -/
theorem readsDelivered_iff_duringHook :
    ∃ s, run State.step {} readDuringHook = some s ∧
      (s.ReadsDelivered ↔ Along State.step State.ReadsInHook {} readDuringHook) :=
  ⟨_, rfl, readsDelivered_iff _ _ rfl⟩

end Luwes.Sahl.DoContents
