import Luwes.AbiImpl.Handle
import Luwes.Lib.LabelledRun
import Mathlib.Data.List.Nodup

/-!
# Callouts and streams: who hears of which event

`HttpCallout` and `StartHttpStream` put the callback into the handle's table *after* the host's init
call has returned, under the identifier the host has chosen.  The hooks find the callback in the
table.  The host may report events from inside the init call, the case the callers in package `sahl`
store their continuation early for; the table does not know the identifier then, and the event is
dropped.

So every event reaches its callback in exactly the runs in which no event comes before its init call
has returned (`delivers_iff`).  The three handle types differ in their flags only, and `CallbackOps` is
what they have in common.
-/

namespace Luwes.AbiImpl.Callbacks

open LabelledRun

variable {η ω : Type}

/-! ## What a handle type offers -/

/-- An operation: its kind, and the identifier the host has given it. -/
abbrev Key := TableKind × UInt64

/-- The part of a handle type that has to do with callouts and streams. -/
structure CallbackOps (η ω : Type) where
  /-- Whether the handle type has this kind of init call. -/
  offers : TableKind → Bool
  /-- An init call, after the host has answered. -/
  init : TableKind → η → HttpCalloutInitResult → UInt64 → ω → η
  /-- The hooks: the callback that is called, if any. -/
  onHostEvent : η → UInt64 → HostEvent → Option ω × η
  /-- The stream, the configuration or the connection is over. -/
  complete : η → η
  /-- The tables. -/
  table : η → Key → Option ω
  /-- The flag the hooks look at. -/
  closed : η → Bool

/-- What all that follows needs to know of a handle type. -/
structure CallbackOps.Lawful (ops : CallbackOps η ω) : Prop where
  init_success : ∀ k h id cb, ops.offers k = true →
    ops.table (ops.init k h .success id cb) = Function.update (ops.table h) (k, id) (some cb)
  init_failed : ∀ k h r id cb, r ≠ .success → ops.init k h r id cb = h
  init_closed : ∀ k h r id cb, ops.closed (ops.init k h r id cb) = ops.closed h
  event_open : ∀ h id ev, ops.offers ev.kind = true → ops.closed h = false →
    (ops.onHostEvent h id ev).1 = ops.table h (ev.kind, id)
  event_table : ∀ h id ev key, key ≠ (ev.kind, id) ∨ ev.isFinal = false →
    ops.table (ops.onHostEvent h id ev).2 key = ops.table h key
  event_closed : ∀ h id ev, ops.closed (ops.onHostEvent h id ev).2 = ops.closed h
  complete_table : ∀ h, ops.table (ops.complete h) = ops.table h

/-- `dymHttpFilterHandle`. -/
def httpFilterOps : CallbackOps (DymHttpFilterHandle ω) ω where
  offers _ := true
  init k h result id cb :=
    match k with
    | .callout => (h.httpCallout result id cb).2
    | .stream => (h.startHttpStream result id cb).2
  onHostEvent := DymHttpFilterHandle.onHostEvent
  complete := DymHttpFilterHandle.onStreamComplete
  table h
    | (.callout, id) => h.calloutCallbacks id
    | (.stream, id) => h.streamCallbacks id
  closed := DymHttpFilterHandle.streamCompleted

/-- `dymConfigHandle`. -/
def configOps : CallbackOps (DymConfigHandle ω) ω where
  offers _ := true
  init k h result id cb :=
    match k with
    | .callout => (h.httpCallout result id cb).2
    | .stream => (h.startHttpStream result id cb).2
  onHostEvent := DymConfigHandle.onHostEvent
  complete := DymConfigHandle.onDestroy
  table h
    | (.callout, id) => h.calloutCallbacks id
    | (.stream, id) => h.streamCallbacks id
  closed _ := false

/-- `dymNetworkFilterHandle`, which has callouts only. -/
def networkFilterOps : CallbackOps (DymNetworkFilterHandle ω) ω where
  offers
    | .callout => true
    | .stream => false
  init k h result id cb :=
    match k with
    | .callout => (h.httpCallout result id cb).2
    | .stream => h
  onHostEvent h id ev :=
    match ev.kind with
    | .callout => h.onHttpCalloutDone id
    | .stream => (none, h)
  complete := DymNetworkFilterHandle.onDestroy
  table h
    | (.callout, id) => h.calloutCallbacks id
    | (.stream, _) => none
  closed := DymNetworkFilterHandle.filterDestroyed

lemma register_success (t : CallbackTable ω) (id id' : UInt64) (cb : ω) :
    t.register .success id cb id' = if id' = id then some cb else t id' := by
  simp [CallbackTable.register, Function.update_apply]

lemma register_failed (t : CallbackTable ω) {r : HttpCalloutInitResult} (id : UInt64) (cb : ω)
    (h : r ≠ .success) : t.register r id cb = t :=
  if_neg h

lemma httpFilterOps_lawful : (httpFilterOps : CallbackOps (DymHttpFilterHandle ω) ω).Lawful where
  init_success k h id cb _ := by
    funext ⟨k', id'⟩
    cases k <;> cases k' <;>
      simp [httpFilterOps, DymHttpFilterHandle.httpCallout, DymHttpFilterHandle.startHttpStream,
        register_success, Function.update_apply]
  init_failed k h r id cb hr := by
    cases k <;>
      simp [httpFilterOps, DymHttpFilterHandle.httpCallout, DymHttpFilterHandle.startHttpStream,
        register_failed _ _ _ hr]
  init_closed k h r id cb := by cases k <;> rfl
  event_open h id ev _ hopen := by
    have hopen : h.streamCompleted = false := hopen
    cases ev <;>
      simp [httpFilterOps, DymHttpFilterHandle.onHostEvent, HostEvent.kind,
        DymHttpFilterHandle.onHttpCalloutDone, DymHttpFilterHandle.onHttpStream, hopen]
  event_table h id ev key hkey := by
    obtain ⟨k, id'⟩ := key
    cases hc : h.streamCompleted <;> cases k <;> cases ev <;>
      simp_all [httpFilterOps, DymHttpFilterHandle.onHostEvent, HostEvent.kind, HostEvent.isFinal,
        DymHttpFilterHandle.onHttpCalloutDone, DymHttpFilterHandle.onHttpStream,
        CallbackTable.deliver]
  event_closed h id ev := by
    cases hc : h.streamCompleted <;> cases ev <;>
      simp [httpFilterOps, DymHttpFilterHandle.onHostEvent, HostEvent.kind,
        DymHttpFilterHandle.onHttpCalloutDone, DymHttpFilterHandle.onHttpStream, hc]
  complete_table h := by
    cases hp : h.plugin <;> simp [httpFilterOps, DymHttpFilterHandle.onStreamComplete, hp]

lemma configOps_lawful : (configOps : CallbackOps (DymConfigHandle ω) ω).Lawful where
  init_success k h id cb _ := by
    funext ⟨k', id'⟩
    cases k <;> cases k' <;>
      simp [configOps, DymConfigHandle.httpCallout, DymConfigHandle.startHttpStream,
        register_success, Function.update_apply]
  init_failed k h r id cb hr := by
    cases k <;>
      simp [configOps, DymConfigHandle.httpCallout, DymConfigHandle.startHttpStream,
        register_failed _ _ _ hr]
  init_closed k h r id cb := rfl
  event_open h id ev _ _ := by
    cases ev <;> rfl
  event_table h id ev key hkey := by
    obtain ⟨k, id'⟩ := key
    cases k <;> cases ev <;>
      simp_all [configOps, DymConfigHandle.onHostEvent, HostEvent.kind, HostEvent.isFinal,
        DymConfigHandle.onHttpCalloutDone, DymConfigHandle.onHttpStream, CallbackTable.deliver]
  event_closed h id ev := rfl
  complete_table h := rfl

lemma networkFilterOps_lawful :
    (networkFilterOps : CallbackOps (DymNetworkFilterHandle ω) ω).Lawful where
  init_success k h id cb hk := by
    funext ⟨k', id'⟩
    cases k with
    | stream => simp [networkFilterOps] at hk
    | callout =>
        cases k' <;>
          simp [networkFilterOps, DymNetworkFilterHandle.httpCallout, register_success,
            Function.update_apply]
  init_failed k h r id cb hr := by
    cases k <;>
      simp [networkFilterOps, DymNetworkFilterHandle.httpCallout, register_failed _ _ _ hr]
  init_closed k h r id cb := by cases k <;> rfl
  event_open h id ev hk hopen := by
    have hopen : h.filterDestroyed = false := hopen
    cases ev <;>
      simp_all [networkFilterOps, HostEvent.kind, DymNetworkFilterHandle.onHttpCalloutDone]
  event_table h id ev key hkey := by
    obtain ⟨k, id'⟩ := key
    cases hc : h.filterDestroyed <;> cases k <;> cases ev <;>
      simp_all [networkFilterOps, HostEvent.kind, HostEvent.isFinal,
        DymNetworkFilterHandle.onHttpCalloutDone, CallbackTable.deliver]
  event_closed h id ev := by
    cases hc : h.filterDestroyed <;> cases ev <;>
      simp [networkFilterOps, HostEvent.kind, DymNetworkFilterHandle.onHttpCalloutDone, hc]
  complete_table h := by
    cases hc : h.filterDestroyed <;> simp [networkFilterOps, DymNetworkFilterHandle.onDestroy, hc]

/-! ## The system -/

/-- An init call that is inside the host, and the answer it is going to get. -/
structure Frame (ω : Type) where
  kind : TableKind
  result : HttpCalloutInitResult
  id : UInt64
  cb : ω

/-- An event and the callback that is to hear of it, or has heard of it. -/
structure Delivery (ω : Type) where
  cb : ω
  id : UInt64
  ev : HostEvent

def Frame.key (f : Frame ω) : Key := (f.kind, f.id)

def Delivery.key (d : Delivery ω) : Key := (d.ev.kind, d.id)

/-- One handle with the host's side of it. -/
structure State (η ω : Type) where
  handle : η
  /-- The init calls that have not returned, the innermost first: a callback that runs inside an
  init call may make init calls of its own. -/
  pending : List (Frame ω) := []
  /-- The operations the host has accepted, with the callback each was started with. -/
  assigned : Key → Option ω := fun _ => none
  /-- The operations whose last event the host has reported. -/
  ended : Key → Bool := fun _ => false
  completed : Bool := false
  /-- The events reported before completion, each with the callback of its operation. -/
  owed : List (Delivery ω) := []
  /-- The events that reached a callback before completion. -/
  received : List (Delivery ω) := []

/-- Who moves. -/
inductive Label (ω : Type)
  /-- `HttpCallout` or `StartHttpStream` enters the host, which is going to answer `result` and, on
  success, has just chosen the identifier. -/
  | call (kind : TableKind) (result : HttpCalloutInitResult) (id : UInt64) (cb : ω)
  /-- The innermost init call returns. -/
  | ret
  /-- The host reports an event of an operation it has accepted and not ended. -/
  | event (id : UInt64) (ev : HostEvent)
  /-- The stream, the configuration or the connection is over. -/
  | complete

/-- The callback hears of the event, if the hook found one. -/
def heard (cb : Option ω) (id : UInt64) (ev : HostEvent) : List (Delivery ω) :=
  (cb.map fun cb => ⟨cb, id, ev⟩).toList

@[simp] lemma heard_none (id : UInt64) (ev : HostEvent) : heard (none : Option ω) id ev = [] := rfl

@[simp] lemma heard_some (cb : ω) (id : UInt64) (ev : HostEvent) :
    heard (some cb) id ev = [⟨cb, id, ev⟩] := rfl

variable (ops : CallbackOps η ω)

/-- One step. -/
def State.step (s : State η ω) : Label ω → Option (State η ω)
  | .call kind result id cb =>
    if ops.offers kind then
      if result = .success then
        if (s.assigned (kind, id)).isSome then none
        else
          some
            { s with
              pending := ⟨kind, result, id, cb⟩ :: s.pending
              assigned := Function.update s.assigned (kind, id) (some cb) }
      else some { s with pending := ⟨kind, result, id, cb⟩ :: s.pending }
    else none
  | .ret =>
    match s.pending with
    | [] => none
    | f :: rest =>
      some { s with handle := ops.init f.kind s.handle f.result f.id f.cb, pending := rest }
  | .event id ev =>
    match s.assigned (ev.kind, id) with
    | none => none
    | some cb =>
      if s.ended (ev.kind, id) then none
      else
        let r := ops.onHostEvent s.handle id ev
        some
          { s with
            handle := r.2
            ended := Function.update s.ended (ev.kind, id) ev.isFinal
            owed := if s.completed then s.owed else s.owed ++ [⟨cb, id, ev⟩]
            received := if s.completed then s.received else s.received ++ heard r.1 id ev }
  | .complete => some { s with handle := ops.complete s.handle, completed := true }

/-- The operations that these init calls are going to start. -/
def acceptedKeys (fs : List (Frame ω)) : List Key :=
  (fs.filter (·.result = .success)).map Frame.key

/-- The operations that are accepted and whose init call has not returned. -/
def State.pendingKeys (s : State η ω) : List Key := acceptedKeys s.pending

/-- The operations that have heard of their last event, in the order of these events. -/
def endings (ds : List (Delivery ω)) : List Key := (ds.filter (·.ev.isFinal)).map Delivery.key

/-- Nothing is lost, doubled or misdirected. -/
structure State.Delivers (s : State η ω) : Prop where
  /-- The callbacks have received all events, in order, each once, and each from the operation they
  were started with. -/
  all : s.received = s.owed
  own : ∀ d ∈ s.received, s.assigned d.key = some d.cb
  /-- No operation ends twice, and the one that has ended has said so. -/
  once : (endings s.received).Nodup
  ends : s.completed = false → ∀ key, s.ended key = true → key ∈ endings s.received
  /-- A failed init call leaves the handle alone. -/
  failed : ∀ f rest, s.pending = f :: rest → f.result ≠ .success →
    ∃ s', s.step ops .ret = some s' ∧ s'.handle = s.handle

/-- An event comes after its init call has returned, or after completion. -/
def State.InitReturned (s : State η ω) : Label ω → Prop
  | .event id ev => s.completed = false → (ev.kind, id) ∉ s.pendingKeys
  | _ => True

/-! ## The invariant -/

/-- The table holds the callbacks of the operations that have not ended and whose init call has
returned. -/
structure State.Sound (s : State η ω) : Prop where
  closed : ops.closed s.handle = true → s.completed = true
  offered : ∀ key cb, s.assigned key = some cb → ops.offers key.1 = true
  pending : ∀ f ∈ s.pending, f.result = .success → s.assigned f.key = some f.cb
  nodup : s.pendingKeys.Nodup
  table : ∀ key, s.ended key = false →
    ops.table s.handle key = if key ∈ s.pendingKeys then none else s.assigned key
  endedAssigned : ∀ key, s.ended key = true → (s.assigned key).isSome
  sublist : s.received.Sublist s.owed
  own : ∀ d ∈ s.owed, s.assigned d.key = some d.cb
  ended : ∀ key ∈ endings s.owed, s.ended key = true
  once : (endings s.owed).Nodup
  ends : s.completed = false → ∀ key, s.ended key = true → key ∈ endings s.owed

/-- A handle whose tables are empty and whose flag is not set. -/
def Fresh (h : η) : Prop := ops.closed h = false ∧ ∀ key, ops.table h key = none

lemma acceptedKeys_cons (f : Frame ω) (fs : List (Frame ω)) :
    acceptedKeys (f :: fs) =
      if f.result = .success then f.key :: acceptedKeys fs else acceptedKeys fs := by
  by_cases hf : f.result = .success <;> simp [acceptedKeys, hf]

lemma mem_pendingKeys {s : State η ω} {key : Key} :
    key ∈ s.pendingKeys ↔ ∃ f ∈ s.pending, f.result = .success ∧ f.key = key := by
  simp [State.pendingKeys, acceptedKeys, and_assoc]

lemma endings_append (ds : List (Delivery ω)) (d : Delivery ω) :
    endings (ds ++ [d]) = if d.ev.isFinal then endings ds ++ [d.key] else endings ds := by
  cases hd : d.ev.isFinal <;> simp [endings, hd]

variable {ops}

lemma sound_new {h : η} (hfresh : Fresh ops h) : ({ handle := h } : State η ω).Sound ops where
  closed hc := by simp [hfresh.1] at hc
  offered key cb h := by simp at h
  pending f h := by simp at h
  nodup := List.nodup_nil
  table key _ := by simp [hfresh.2]
  endedAssigned key h := by simp at h
  sublist := List.Sublist.refl _
  own d h := by simp at h
  ended key h := by simp [endings] at h
  once := List.nodup_nil
  ends _ key h := by simp at h

namespace State.Sound

variable {s s' : State η ω}

lemma assigned_of_pending (hs : s.Sound ops) {key : Key} (h : key ∈ s.pendingKeys) :
    ∃ cb, s.assigned key = some cb := by
  obtain ⟨f, hf, hsuccess, rfl⟩ := mem_pendingKeys.mp h
  exact ⟨f.cb, hs.pending f hf hsuccess⟩

lemma accept (hs : s.Sound ops) {kind : TableKind} {id : UInt64} {cb : ω}
    (hoffers : ops.offers kind = true) (hnew : s.assigned (kind, id) = none) :
    ({ s with
        pending := ⟨kind, .success, id, cb⟩ :: s.pending
        assigned := Function.update s.assigned (kind, id) (some cb) } : State η ω).Sound ops := by
  have hkeys : ∀ key cb', s.assigned key = some cb' → key ≠ (kind, id) := by
    rintro key cb' hkey rfl
    simp [hnew] at hkey
  have hkeep : ∀ key cb', s.assigned key = some cb' →
      Function.update s.assigned (kind, id) (some cb) key = some cb' := fun key cb' hkey => by
    rw [Function.update_of_ne (hkeys key cb' hkey), hkey]
  have hpk : (kind, id) ∉ s.pendingKeys := fun hmem => by
    obtain ⟨cb', hcb'⟩ := hs.assigned_of_pending hmem
    exact hkeys _ _ hcb' rfl
  refine { hs with
    offered := ?_, pending := ?_, nodup := ?_, table := ?_, endedAssigned := ?_, own := ?_ }
  · intro key cb' hkey
    by_cases heq : key = (kind, id)
    · rw [heq]
      exact hoffers
    · exact hs.offered key cb' (by simpa [heq] using hkey)
  · intro f hf hsuccess
    rcases List.mem_cons.mp hf with rfl | hf
    · simp [Frame.key]
    · exact hkeep _ _ (hs.pending f hf hsuccess)
  · rw [State.pendingKeys, acceptedKeys_cons]
    exact List.nodup_cons.mpr ⟨hpk, hs.nodup⟩
  · intro key hended
    have htable := hs.table key hended
    rw [State.pendingKeys, acceptedKeys_cons]
    by_cases heq : key = (kind, id)
    · subst heq
      simpa [Frame.key, hnew] using htable
    · rw [htable]
      simp only [if_true, Frame.key, List.mem_cons, heq, false_or, ne_eq, not_false_eq_true,
        Function.update_of_ne]
      rfl
  · intro key hended
    obtain ⟨cb', hcb'⟩ := Option.isSome_iff_exists.mp (hs.endedAssigned key hended)
    simp [hkeep key cb' hcb']
  · intro d hd
    exact hkeep _ _ (hs.own d hd)

lemma returned (hl : ops.Lawful) (hs : s.Sound ops) {f : Frame ω} {rest : List (Frame ω)}
    (hpending : s.pending = f :: rest) :
    ({ s with handle := ops.init f.kind s.handle f.result f.id f.cb, pending := rest } :
      State η ω).Sound ops := by
  have hsub : rest ⊆ s.pending := by
    rw [hpending]
    exact List.subset_cons_self f rest
  by_cases hres : f.result = .success
  · have hassigned := hs.pending f (by simp [hpending]) hres
    have hkeys : s.pendingKeys = f.key :: acceptedKeys rest := by
      rw [State.pendingKeys, hpending, acceptedKeys_cons, if_pos hres]
    obtain ⟨hnotin, hnodup⟩ := List.nodup_cons.mp (hkeys ▸ hs.nodup)
    refine { hs with
      closed := ?_, pending := fun g hg => hs.pending g (hsub hg), nodup := hnodup, table := ?_ }
    · rw [hl.init_closed]
      exact hs.closed
    · intro key hended
      have hoff := hs.offered _ _ hassigned
      have hinit : ops.table (ops.init f.kind s.handle f.result f.id f.cb) =
          Function.update (ops.table s.handle) f.key (some f.cb) := by
        rw [hres]
        exact hl.init_success f.kind s.handle f.id f.cb hoff
      show ops.table (ops.init f.kind s.handle f.result f.id f.cb) key =
        if key ∈ acceptedKeys rest then none else s.assigned key
      rw [hinit]
      by_cases heq : key = f.key
      · rw [heq, Function.update_self, hassigned, if_neg hnotin]
      · simp [heq, hs.table key hended, hkeys]
  · have hkeys : s.pendingKeys = acceptedKeys rest := by
      rw [State.pendingKeys, hpending, acceptedKeys_cons, if_neg hres]
    rw [hl.init_failed _ _ _ _ _ hres]
    refine { hs with
      pending := fun g hg => hs.pending g (hsub hg), nodup := ?_, table := fun key hended => ?_ }
    · show (acceptedKeys rest).Nodup
      exact hkeys ▸ hs.nodup
    · rw [hs.table key hended, hkeys]
      rfl

/-- What a hook finds: the callback of the operation, once the init call has returned. -/
lemma found (hl : ops.Lawful) (hs : s.Sound ops) {id : UInt64} {ev : HostEvent} {cb : ω}
    (hassigned : s.assigned (ev.kind, id) = some cb) (hended : s.ended (ev.kind, id) = false)
    (hopen : s.completed = false) :
    (ops.onHostEvent s.handle id ev).1 =
      if (ev.kind, id) ∈ s.pendingKeys then none else some cb := by
  have hclosed : ops.closed s.handle = false := by
    by_contra hc
    simp [hs.closed (by simpa using hc)] at hopen
  rw [hl.event_open _ _ _ (hs.offered _ _ hassigned) hclosed, hs.table _ hended, hassigned]

lemma table_event (hl : ops.Lawful) (hs : s.Sound ops) {id : UInt64} {ev : HostEvent}
    (hended : s.ended (ev.kind, id) = false) (key : Key)
    (hkey : Function.update s.ended (ev.kind, id) ev.isFinal key = false) :
    ops.table (ops.onHostEvent s.handle id ev).2 key =
      if key ∈ s.pendingKeys then none else s.assigned key := by
  by_cases heq : key = (ev.kind, id)
  · subst heq
    rw [hl.event_table _ _ _ _ (.inr (by simpa using hkey))]
    exact hs.table _ hended
  · rw [hl.event_table _ _ _ _ (.inl heq)]
    exact hs.table _ (by simpa [heq] using hkey)

lemma endedAssigned_event (hs : s.Sound ops) {id : UInt64} {ev : HostEvent} {cb : ω}
    (hassigned : s.assigned (ev.kind, id) = some cb) (key : Key)
    (hkey : Function.update s.ended (ev.kind, id) ev.isFinal key = true) :
    (s.assigned key).isSome := by
  by_cases heq : key = (ev.kind, id)
  · simp [heq, hassigned]
  · exact hs.endedAssigned key (by simpa [heq] using hkey)

lemma reported (hl : ops.Lawful) (hs : s.Sound ops) {id : UInt64} {ev : HostEvent} {cb : ω}
    (hassigned : s.assigned (ev.kind, id) = some cb) (hended : s.ended (ev.kind, id) = false)
    {heardOf : List (Delivery ω)} (hheard : heardOf.Sublist [⟨cb, id, ev⟩]) :
    ({ s with
        handle := (ops.onHostEvent s.handle id ev).2
        ended := Function.update s.ended (ev.kind, id) ev.isFinal
        owed := s.owed ++ [⟨cb, id, ev⟩]
        received := s.received ++ heardOf } : State η ω).Sound ops := by
  have hnew : (ev.kind, id) ∉ endings s.owed := fun hmem => by
    simp [hs.ended _ hmem] at hended
  refine { hs with
    closed := ?_, table := hs.table_event hl hended
    endedAssigned := hs.endedAssigned_event hassigned, sublist := hs.sublist.append hheard
    own := ?_, ended := ?_, once := ?_, ends := ?_ }
  · rw [hl.event_closed]
    exact hs.closed
  · intro d hd
    rcases List.mem_append.mp hd with hd | hd
    · exact hs.own d hd
    · rw [List.mem_singleton.mp hd]
      exact hassigned
  · intro key hkey
    rw [endings_append] at hkey
    by_cases heq : key = (ev.kind, id)
    · subst heq
      cases hfinal : ev.isFinal with
      | true => simp
      | false => exact absurd (by simpa [hfinal] using hkey) hnew
    · have hold : key ∈ endings s.owed := by
        cases hfinal : ev.isFinal <;> simpa [hfinal, Delivery.key, heq] using hkey
      simpa [heq] using hs.ended key hold
  · rw [endings_append]
    split
    · rw [List.nodup_append_comm]
      exact List.nodup_cons.mpr ⟨hnew, hs.once⟩
    · exact hs.once
  · intro hopen key hkey
    rw [endings_append]
    by_cases heq : key = (ev.kind, id)
    · have hfinal : ev.isFinal = true := by simpa [heq] using hkey
      simp [hfinal, heq, Delivery.key]
    · have hold := hs.ends hopen key (by simpa [heq] using hkey)
      cases ev.isFinal <;> simp [hold]

lemma reportedLate (hl : ops.Lawful) (hs : s.Sound ops) {id : UInt64} {ev : HostEvent} {cb : ω}
    (hassigned : s.assigned (ev.kind, id) = some cb) (hended : s.ended (ev.kind, id) = false)
    (hdone : s.completed = true) :
    ({ s with
        handle := (ops.onHostEvent s.handle id ev).2
        ended := Function.update s.ended (ev.kind, id) ev.isFinal } : State η ω).Sound ops := by
  refine { hs with
    closed := fun _ => hdone, table := hs.table_event hl hended
    endedAssigned := hs.endedAssigned_event hassigned, ended := ?_, ends := ?_ }
  · intro key hkey
    by_cases heq : key = (ev.kind, id)
    · subst heq
      simp [hs.ended _ hkey] at hended
    · simpa [heq] using hs.ended key hkey
  · intro hopen
    simp [hdone] at hopen

/-- The condition decides all of it: the rest is never broken. -/
lemma delivers_iff_owed (hl : ops.Lawful) (hs : s.Sound ops) :
    s.Delivers ops ↔ s.received = s.owed := by
  refine ⟨Delivers.all, fun hall => ?_⟩
  refine ⟨hall, hall ▸ hs.own, hall ▸ hs.once, hall ▸ hs.ends, fun f rest hpending hres => ?_⟩
  refine ⟨_, by rw [State.step, hpending], ?_⟩
  exact hl.init_failed _ _ _ _ _ hres

/-- **One step** keeps the invariant, and loses an event exactly when the event comes before its init
call has returned. -/
lemma step (hl : ops.Lawful) (hs : s.Sound ops) {l : Label ω} (h : s.step ops l = some s') :
    s'.Sound ops ∧ (s'.received = s'.owed ↔ s.received = s.owed ∧ s.InitReturned l) := by
  cases l with
  | call kind result id cb =>
      simp only [State.step] at h
      split_ifs at h with hoffers hres hnew
      · subst hres
        obtain rfl := Option.some.inj h
        exact ⟨hs.accept hoffers (by simpa using hnew), by simp [InitReturned]⟩
      · obtain rfl := Option.some.inj h
        have hkeys : acceptedKeys (⟨kind, result, id, cb⟩ :: s.pending) = s.pendingKeys := by
          rw [acceptedKeys_cons, if_neg hres, State.pendingKeys]
        refine ⟨{ hs with pending := ?_, nodup := ?_, table := ?_ }, by simp [InitReturned]⟩
        · intro f hf hsuccess
          rcases List.mem_cons.mp hf with rfl | hf
          · exact absurd hsuccess hres
          · exact hs.pending f hf hsuccess
        · rw [State.pendingKeys, hkeys]
          exact hs.nodup
        · intro key hended
          rw [State.pendingKeys, hkeys]
          exact hs.table key hended
  | ret =>
      simp only [State.step] at h
      split at h
      · simp at h
      · rename_i f rest hpending
        obtain rfl := Option.some.inj h
        exact ⟨hs.returned hl hpending, by simp [InitReturned]⟩
  | event id ev =>
      simp only [State.step] at h
      split at h
      · simp at h
      · rename_i cb hassigned
        split_ifs at h with hended hdone
        · obtain rfl := Option.some.inj h
          have hended : s.ended (ev.kind, id) = false := by simpa using hended
          exact ⟨hs.reportedLate hl hassigned hended hdone, by simp [InitReturned, hdone]⟩
        · obtain rfl := Option.some.inj h
          have hended : s.ended (ev.kind, id) = false := by simpa using hended
          have hopen : s.completed = false := by simpa using hdone
          rw [hs.found hl hassigned hended hopen]
          by_cases hkey : (ev.kind, id) ∈ s.pendingKeys
          · rw [if_pos hkey, heard_none]
            refine ⟨hs.reported hl hassigned hended (List.nil_sublist _), ?_⟩
            have hlen := hs.sublist.length_le
            have hlost : s.received ≠ s.owed ++ [⟨cb, id, ev⟩] := fun heq => by
              have hlen' := congrArg List.length heq
              simp only [List.length_append, List.length_singleton] at hlen'
              omega
            simp [InitReturned, hopen, hkey, hlost]
          · rw [if_neg hkey, heard_some]
            refine ⟨hs.reported hl hassigned hended (List.Sublist.refl _), ?_⟩
            simp [InitReturned, hkey]
  | complete =>
      obtain rfl := Option.some.inj h
      refine ⟨{ hs with
        closed := fun _ => rfl, table := ?_, ends := fun hopen => by simp at hopen }, ?_⟩
      · rw [hl.complete_table]
        exact hs.table
      · simp [InitReturned]

end State.Sound

/-! ## Whole runs -/

/-- The condition decides every run, of any lawful handle type. -/
lemma delivers_iff_of_lawful (hl : ops.Lawful) {h : η} (hfresh : Fresh ops h)
    {ls : List (Label ω)} {s : State η ω} (hrun : run (State.step ops) { handle := h } ls = some s) :
    s.Delivers ops ↔ Along (State.step ops) State.InitReturned { handle := h } ls := by
  have hnew := sound_new hfresh
  have hsound : s.Sound ops :=
    run_invariant (fun _ _ _ hs h => (hs.step hl h).1) hnew hrun
  rw [hsound.delivers_iff_owed hl, run_iff_along (P := fun s => s.received = s.owed)
    (fun _ _ _ hs h => (hs.step hl h).1) (fun _ _ _ hs h => (hs.step hl h).2) hnew hrun]
  exact and_iff_right rfl

/-- **The exact condition**, for the three handle types: every event reaches the callback of its
operation in exactly the runs in which no event comes before its init call has returned. -/
theorem delivers_iff (ls : List (Label ω)) :
    (∀ (h : DymHttpFilterHandle ω) s, Fresh httpFilterOps h →
      run (State.step httpFilterOps) { handle := h } ls = some s →
        (s.Delivers httpFilterOps ↔
          Along (State.step httpFilterOps) State.InitReturned { handle := h } ls)) ∧
    (∀ (h : DymConfigHandle ω) s, Fresh configOps h →
      run (State.step configOps) { handle := h } ls = some s →
        (s.Delivers configOps ↔
          Along (State.step configOps) State.InitReturned { handle := h } ls)) ∧
    (∀ (h : DymNetworkFilterHandle ω) s, Fresh networkFilterOps h →
      run (State.step networkFilterOps) { handle := h } ls = some s →
        (s.Delivers networkFilterOps ↔
          Along (State.step networkFilterOps) State.InitReturned { handle := h } ls)) :=
  ⟨fun _ _ hfresh hrun => delivers_iff_of_lawful httpFilterOps_lawful hfresh hrun,
    fun _ _ hfresh hrun => delivers_iff_of_lawful configOps_lawful hfresh hrun,
    fun _ _ hfresh hrun => delivers_iff_of_lawful networkFilterOps_lawful hfresh hrun⟩

/-- The host answers a callout from inside the init call. -/
def inlineDone : List (Label String) :=
  [.call .callout .success 7 "auth", .event 7 (.calloutDone .reset [] []), .ret]

/-- The callout has ended, and its callback has heard nothing. -/
theorem inlineDone_lost :
    ¬ ∀ (ls : List (Label String)),
      (∀ s, run (State.step httpFilterOps) { handle := {} } ls = some s → s.Delivers httpFilterOps) ∧
      (∀ s, run (State.step configOps) { handle := {} } ls = some s → s.Delivers configOps) ∧
      (∀ s, run (State.step networkFilterOps) { handle := {} } ls = some s →
        s.Delivers networkFilterOps) := by
  intro h
  have hall := ((h inlineDone).1 _ rfl).all
  exact absurd (congrArg List.length hall) (by decide)

/-- A stream and a callout overlap; a second callout fails to start while the stream goes on. -/
def overlapping : List (Label String) :=
  [.call .stream .success 3 "audit", .ret, .call .callout .clusterNotFound 0 "auth",
    .event 3 (.streamHeaders [] false), .ret, .call .callout .success 3 "auth", .ret,
    .event 3 (.calloutDone .success [] []), .event 3 .streamComplete]

/-- Two callouts overlap, and the second is done first. -/
def overlappingCallouts : List (Label String) :=
  [.call .callout .success 1 "auth", .ret, .call .callout .success 2 "audit", .ret,
    .event 2 (.calloutDone .success [] []), .event 1 (.calloutDone .reset [] [])]

lemma fresh_httpFilter : Fresh httpFilterOps ({} : DymHttpFilterHandle ω) :=
  ⟨rfl, fun key => by rcases key with ⟨_ | _, _⟩ <;> rfl⟩

lemma fresh_config : Fresh configOps ({} : DymConfigHandle ω) :=
  ⟨rfl, fun key => by rcases key with ⟨_ | _, _⟩ <;> rfl⟩

lemma fresh_networkFilter : Fresh networkFilterOps ({} : DymNetworkFilterHandle ω) :=
  ⟨rfl, fun key => by rcases key with ⟨_ | _, _⟩ <;> rfl⟩

/-- The condition evaluated on these runs. -/
theorem delivers_iff_overlapping :
    (∃ s, run (State.step httpFilterOps) { handle := {} } overlapping = some s ∧
      (s.Delivers httpFilterOps ↔
        Along (State.step httpFilterOps) State.InitReturned { handle := {} } overlapping)) ∧
    (∃ s, run (State.step configOps) { handle := {} } overlapping = some s ∧
      (s.Delivers configOps ↔
        Along (State.step configOps) State.InitReturned { handle := {} } overlapping)) ∧
    (∃ s, run (State.step networkFilterOps) { handle := {} } overlappingCallouts = some s ∧
      (s.Delivers networkFilterOps ↔
        Along (State.step networkFilterOps) State.InitReturned { handle := {} }
          overlappingCallouts)) :=
  ⟨⟨_, rfl, (delivers_iff overlapping).1 {} _ fresh_httpFilter rfl⟩,
    ⟨_, rfl, (delivers_iff overlapping).2.1 {} _ fresh_config rfl⟩,
    ⟨_, rfl, (delivers_iff overlappingCallouts).2.2 {} _ fresh_networkFilter rfl⟩⟩

end Luwes.AbiImpl.Callbacks
