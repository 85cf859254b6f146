import Luwes.Examples.MemStore
import Luwes.Lib.LabelledRun
import Luwes.Lib.Subscription
import Mathlib.Data.List.Forall2
import Mathlib.Logic.Function.Basic

/-!
# The sink of the request log (`sahl/examples/request-ui/sink/sink.go`)

Worker threads `Send` records into a channel that drops what it has no room for.  One goroutine, the
writer, takes them out, inserts them into the store in batches, and broadcasts what the store returns to
the subscribers, each of whom has a channel that drops as well.  HTTP handlers read: a stream handler
subscribes and takes records from its channel, and the request handler queries the store.

Every step below is atomic in the source: an operation of a channel, or a section under one mutex.  The
writer stands between two broadcasts while others go on, which is what `pending` is for.

* What `Send` accepts reaches the store once and in order (`Sink.accepted_order`), and what it drops is
  what came while 4096 records waited.
* A stream shows a part of the broadcast records, numbered upwards, and all of them exactly when its
  channel was never full (`Sink.stream_follows`).
* A reader that polls with the number it has last seen is given every record once and in order as long
  as it is never more than `cap` records behind, and goes wrong otherwise (`Sink.poll_complete`).

All this is about the sink in memory mode (`REQUI_MODE=memory`), whose store is `memStore`: its `insert` does
not fail, and returns the records in the order it was given them.  The store of the other mode may fail, and
what is in the batch then is lost.
-/

namespace Luwes.RequestUi

open LabelledRun

/-- A client of `GET /api/stream`: its channel, and how much had been broadcast when it subscribed. -/
structure StreamClient where
  start : ℕ
  sub : Subscription Record := {}
  deriving DecidableEq, Repr

/-- A client that polls `GET /api/requests`: the number it has last seen, the one it began with, and what
its polls have brought. -/
structure Reader where
  start : ℕ
  last : ℕ
  got : List Record := []
  deriving DecidableEq, Repr

/-- The request for the records after a number. -/
def RequestsQuery.after (since : ℕ) (limit : ℤ) : RequestsQuery := { since := since, limit := some limit }

/-- A reader after its first request: the newest record comes first. -/
def Reader.load (page : List Record) : Reader :=
  let newest := (page.head?.map (·.id)).getD 0
  { start := newest, last := newest }

/-- A reader after a poll: the newest record comes last. -/
def Reader.poll (rd : Reader) (page : List Record) : Reader :=
  { rd with last := (page.getLast?.map (·.id)).getD rd.last, got := rd.got ++ page }

/-- `Sink`, with the local variables of `writer` and the clients of the handlers.  What `Send` was called
with, what it put into the channel, what was inserted and what was broadcast are remembered. -/
structure Sink where
  ch : List Record := []
  st : MemStore
  subs : ℕ → Option StreamClient := fun _ => none
  batch : List Record := []
  pending : List Record := []
  readers : ℕ → Option Reader := fun _ => none
  offered : List Record := []
  accepted : List Record := []
  log : List Record := []
  broadcast : List Record := []

/-- What happens. -/
inductive SinkLabel
  /-- A worker thread calls `Send`. -/
  | send (r : Record)
  /-- The writer takes a record from the channel; the time is that of an insert. -/
  | receive (now : GoString)
  /-- The ticker of the writer fires. -/
  | tick (now : GoString)
  /-- The writer broadcasts the next record that the store has returned. -/
  | broadcast
  /-- `handleStream` begins, takes a record from its channel, and ends. -/
  | subscribe (i : ℕ)
  | deliver (i : ℕ)
  | unsubscribe (i : ℕ)
  /-- A reader asks for the newest records, and later for those after the last one it has. -/
  | load (j : ℕ) (limit : ℤ)
  | poll (j : ℕ) (limit : ℤ)
  deriving DecidableEq, Repr

/-- The record that `Send` is called with. -/
def SinkLabel.sent : SinkLabel → Option Record
  | .send r => some r
  | _ => none

/-- The steps of the writer. -/
def SinkLabel.ofWriter : SinkLabel → Bool
  | .receive _ | .tick _ | .broadcast => true
  | _ => false

namespace Sink

/-- `New` and `Start` in memory mode. -/
def new (capacity : ℤ) : Sink := { st := newMemStore capacity }

/-- `flush`, with a store whose `insert` returns no error. -/
def flush (s : Sink) (now : GoString) : Sink :=
  if s.batch = [] then s
  else
    let (st, inserted) := s.st.insert now s.batch
    { s with st := st, pending := inserted, batch := [], log := s.log ++ inserted }

/-- The `case` of the writer for a record. -/
def receive (s : Sink) (now : GoString) : Option Sink :=
  match s.ch with
  | [] => none
  | r :: ch =>
    let s := { s with ch := ch, batch := s.batch ++ [r] }
    some (if s.batch.length ≥ 100 then s.flush now else s)

/-- `broadcaster.send`. -/
def bcastSend (s : Sink) (r : Record) : Sink :=
  { s with
    broadcast := s.broadcast ++ [r]
    subs := fun i => (s.subs i).map fun c => { c with sub := c.sub.offer 64 r } }

variable (toLower : GoString → GoString)

/-- One step. -/
def step (s : Sink) : SinkLabel → Option Sink
  | .send r =>
    let s := { s with offered := s.offered ++ [r] }
    some (if s.ch.length < 4096 then { s with ch := s.ch ++ [r], accepted := s.accepted ++ [r] } else s)
  | .receive now => if s.pending = [] then s.receive now else none
  | .tick now => if s.pending = [] then some (s.flush now) else none
  | .broadcast =>
    match s.pending with
    | [] => none
    | r :: pending =>
      some ({ s with pending := pending }.bcastSend r)
  | .subscribe i =>
    if s.subs i = none then
      some { s with subs := Function.update s.subs i (some { start := s.broadcast.length }) }
    else none
  | .deliver i =>
    (s.subs i).bind fun c => c.sub.take.map fun sub =>
      { s with subs := Function.update s.subs i (some { c with sub := sub }) }
  | .unsubscribe i => some { s with subs := Function.update s.subs i none }
  | .load j limit =>
    if s.readers j = none then
      let page := s.st.query toLower (RequestsQuery.after 0 limit).params
      some { s with readers := Function.update s.readers j (some (Reader.load page)) }
    else none
  | .poll j limit =>
    (s.readers j).bind fun rd =>
      if rd.last = 0 then none
      else
        let page := s.st.query toLower (RequestsQuery.after rd.last limit).params
        some { s with readers := Function.update s.readers j (some (rd.poll page)) }

end Sink

/-! ## What a reader is shown -/

/-- Of a numbered list, the records after the one with number `k`. -/
lemma filter_after {xs : List Record} {a : ℕ} (k : ℕ)
    (h : xs.map (·.id) = List.range' a xs.length) :
    (xs.filter fun r => !decide (r.id ≤ k)) = xs.drop (k + 1 - a) := by
  induction xs generalizing a with
  | nil => simp
  | cons r xs ih =>
      simp only [List.map_cons, List.length_cons, List.range'_succ, List.cons.injEq] at h
      obtain ⟨hid, hids⟩ := h
      rw [List.filter_cons, ih hids, hid]
      by_cases hk : a ≤ k
      · rw [if_neg (by simpa using hk), show k + 1 - a = k + 1 - (a + 1) + 1 by omega, List.drop_succ_cons]
      · rw [if_pos (by simpa using hk), show k + 1 - a = 0 by omega,
          show k + 1 - (a + 1) = 0 by omega, List.drop_zero, List.drop_zero]

lemma getLast?_id {xs : List Record} {a : ℕ} (h : xs.map (·.id) = List.range' a xs.length) (d : ℕ) :
    (xs.getLast?.map (·.id)).getD d = if xs = [] then d else a + xs.length - 1 := by
  rw [← List.getLast?_map, h, List.getLast?_range']
  by_cases hxs : xs = []
  · simp [hxs]
  · simp [hxs]

lemma limit_pos (since : ℕ) (limit : ℤ) : 0 < (RequestsQuery.after since limit).params.limit := by
  simp only [RequestsQuery.after, RequestsQuery.params]
  split <;> omega

section

variable {m : MemStore} {log : List Record}

/-- **A poll** brings the records after the last one, from the oldest the store still has. -/
lemma MemStore.Holds.query_after (h : m.Holds log) (hnum : Numbered log)
    (toLower : GoString → GoString) {last : ℕ} (hlast : 0 < last) (limit : ℤ) :
    m.query toLower (RequestsQuery.after last limit).params =
      (log.drop (max last (log.length - m.cap))).take (RequestsQuery.after last limit).params.limit := by
  have hskips : ∀ r : Record, (RequestsQuery.after last limit).params.skips toLower r =
      decide (r.id ≤ last) := by
    intro r
    simp [RequestsQuery.after, RequestsQuery.params, QueryParams.skips, ascii, hlast]
  have hasc : (RequestsQuery.after last limit).params.ascending = true := by
    simp [RequestsQuery.after, RequestsQuery.params, hlast]
  have hids : (log.rtake m.cap).map (·.id) =
      List.range' (1 + (log.length - m.cap)) (log.rtake m.cap).length := by
    rw [List.rtake, List.map_drop, hnum, List.drop_range', List.length_drop]
    simp
  rw [h.query, logQuery, hasc, if_pos rfl]
  simp only [hskips]
  rw [filter_after last hids, List.rtake, List.drop_drop]
  congr 2
  omega

/-- **The first request** brings the newest record first. -/
lemma MemStore.Holds.query_load (h : m.Holds log) (hnum : Numbered log)
    (toLower : GoString → GoString) (limit : ℤ) :
    Reader.load (m.query toLower (RequestsQuery.after 0 limit).params) =
      { start := log.length, last := log.length } := by
  have hskips : ∀ r : Record, (RequestsQuery.after 0 limit).params.skips toLower r = false := by
    intro r
    simp [RequestsQuery.after, RequestsQuery.params, QueryParams.skips, ascii]
  have hasc : (RequestsQuery.after 0 limit).params.ascending = false := by
    simp [RequestsQuery.after, RequestsQuery.params]
  have hpage : (m.query toLower (RequestsQuery.after 0 limit).params).head? = log.getLast? := by
    rw [h.query, logQuery, hasc, if_neg (by simp)]
    simp only [hskips, Bool.not_false, List.filter_true]
    rw [List.head?_take, if_neg (limit_pos 0 limit).ne', List.head?_reverse, List.rtake,
      List.getLast?_drop]
    split
    next hle =>
      have hpos := h.pos
      obtain rfl : log = [] := List.eq_nil_of_length_eq_zero (by omega)
      rfl
    next => rfl
  rw [Reader.load, hpage, getLast?_id hnum 0]
  by_cases hlog : log = []
  · simp [hlog]
  · simp [hlog]

end

/-! ## What every step keeps -/

/-- What a stream client has got and has waiting is some of what was broadcast since it came. -/
def StreamClient.Fits (c : StreamClient) (broadcast : List Record) : Prop :=
  c.start ≤ broadcast.length ∧ c.sub.Follows 64 (broadcast.drop c.start)

/-- What a reader has got is some of the log between the number it began with and the last one it has. -/
def Reader.Fits (rd : Reader) (log : List Record) : Prop :=
  rd.start ≤ rd.last ∧ rd.last ≤ log.length ∧ rd.got.Sublist ((log.take rd.last).drop rd.start)

/-- The reader has got all of it. -/
def Reader.Complete (rd : Reader) (log : List Record) : Prop :=
  rd.got = (log.take rd.last).drop rd.start

lemma drop_take_add {log : List Record} (start : ℕ) {m : ℕ} (hstart : start ≤ m) (hm : m ≤ log.length) (k : ℕ) :
    (log.take (m + k)).drop start = (log.take m).drop start ++ (log.drop m).take k := by
  rw [List.take_add, List.drop_append_of_le_length (by rw [List.length_take_of_le hm]; exact hstart)]

lemma Numbered.page {log : List Record} (h : Numbered log) (m k : ℕ) :
    ((log.drop m).take k).map (·.id) = List.range' (1 + m) ((log.drop m).take k).length := by
  refine List.ext_getElem (by simp) fun i hi _ => ?_
  simp only [List.length_map, List.length_take, List.length_drop] at hi
  have hid : (log.map (·.id))[m + i]? = some (1 + (m + i)) := by
    rw [h, List.getElem?_range' (by omega), Nat.one_mul]
  obtain ⟨_, hid⟩ := List.getElem?_eq_some_iff.mp hid
  simpa [Nat.add_assoc] using hid

/-- **One poll**: the reader keeps to the log, and has all of it exactly when it had all of it and the
store still has what follows. -/
lemma Reader.Fits.poll {rd : Reader} {log : List Record} {cap limit m : ℕ} (h : rd.Fits log)
    (hnum : Numbered log) (hcap : 0 < cap) (hlimit : 0 < limit)
    (hm : m = max rd.last (log.length - cap)) :
    (rd.poll ((log.drop m).take limit)).Fits log ∧
      ((rd.poll ((log.drop m).take limit)).Complete log ↔
        rd.Complete log ∧ log.length ≤ rd.last + cap) := by
  obtain ⟨hstart, hlast, hgot⟩ := h
  have hmle : rd.last ≤ m := by omega
  have hids := hnum.page m limit
  have hlen : ((log.drop m).take limit).length = min limit (log.length - m) := by simp
  have hpart (hmlen : m ≤ log.length) := drop_take_add rd.start (by omega) hmlen limit
  generalize (log.drop m).take limit = page at hids hlen hpart ⊢
  have hnew : (rd.poll page).last = if page = [] then rd.last else m + page.length := by
    simp only [Reader.poll, getLast?_id hids]
    split
    next => rfl
    next => omega
  by_cases hpage : page = []
  · -- The reader is up to date.
    have hend : log.length ≤ rd.last := by
      rw [hpage, List.length_nil] at hlen
      omega
    have hsame : rd.poll page = rd := by
      rw [hpage]
      simp [Reader.poll]
    rw [hsame]
    exact ⟨⟨hstart, hlast, hgot⟩, (and_iff_left (by omega)).symm⟩
  · rw [if_neg hpage] at hnew
    have hpos := List.length_pos_of_ne_nil hpage
    have hmlen : m ≤ log.length := by omega
    have hpart : (log.take (m + page.length)).drop rd.start = (log.take m).drop rd.start ++ page := by
      rw [← hpart hmlen]
      congr 1
      exact List.take_eq_take_iff.mpr (by omega)
    have holder : ((log.take rd.last).drop rd.start).Sublist ((log.take m).drop rd.start) :=
      (List.take_prefix_take_left hmle).sublist.drop rd.start
    refine ⟨⟨?_, ?_, ?_⟩, ?_⟩
    · rw [hnew]
      exact (hstart.trans hmle).trans (Nat.le_add_right _ _)
    · rw [hnew]
      omega
    · rw [hnew]
      exact hpart ▸ (hgot.trans holder).append (.refl page)
    · have hlengths := hgot.length_le
      simp only [List.length_drop, List.length_take] at hlengths
      rw [Reader.Complete, hnew]
      show rd.got ++ page = _ ↔ _
      rw [show (rd.poll page).start = rd.start from rfl, hpart, List.append_left_inj, Reader.Complete]
      constructor
      · intro heq
        have heqlen := congrArg List.length heq
        simp only [List.length_drop, List.length_take] at heqlen
        obtain rfl : m = rd.last := by omega
        exact ⟨heq, by omega⟩
      · rintro ⟨heq, hroom⟩
        obtain rfl : m = rd.last := by omega
        exact heq

namespace Sink

/-- What `Send` has accepted is in the log, in the batch and in the channel, in this order. -/
def Ordered (s : Sink) : Prop :=
  ∃ sent, s.accepted = sent ++ s.batch ++ s.ch ∧ List.Forall₂ Record.IsStamped sent s.log

/-- The invariant of the sink; `n` is how many records may be in the batch. -/
structure Inv (n : ℕ) (s : Sink) : Prop where
  store : s.st.Holds s.log
  numbered : Numbered s.log
  ordered : s.Ordered
  offered : s.accepted.Sublist s.offered
  room : s.ch.length ≤ 4096
  batched : s.batch.length ≤ n
  published : s.log = s.broadcast ++ s.pending
  streams : ∀ i c, s.subs i = some c → c.Fits s.broadcast
  readers : ∀ j rd, s.readers j = some rd → rd.Fits s.log

variable {n : ℕ} {s s' : Sink} {toLower : GoString → GoString}

lemma inv_new (capacity : ℤ) : (new capacity).Inv 99 where
  store := MemStore.holds_new capacity
  numbered := rfl
  ordered := ⟨[], rfl, .nil⟩
  offered := .refl _
  room := by simp [new]
  batched := by simp [new]
  published := rfl
  streams _ _ hc := by simp [new] at hc
  readers _ _ hrd := by simp [new] at hrd

lemma flush_eq (h : s.st.Holds s.log) (now : GoString) (hbatch : s.batch ≠ []) :
    ∃ st : MemStore, st.Holds (s.log ++ logged now s.log.length s.batch) ∧ st.cap = s.st.cap ∧
      s.flush now =
        { s with
          st := st
          pending := logged now s.log.length s.batch
          batch := []
          log := s.log ++ logged now s.log.length s.batch } := by
  obtain ⟨hout, hholds, hcap⟩ := h.insert now s.batch
  refine ⟨_, hholds, hcap, ?_⟩
  rw [flush, if_neg hbatch, ← hout]

lemma Inv.flush (h : s.Inv n) (hpending : s.pending = []) (now : GoString) :
    (s.flush now).Inv 0 := by
  by_cases hbatch : s.batch = []
  · rw [Sink.flush, if_pos hbatch]
    exact { h with batched := by simp [hbatch] }
  · obtain ⟨st, hholds, -, heq⟩ := flush_eq h.store now hbatch
    obtain ⟨sent, haccepted, hstamped⟩ := h.ordered
    rw [heq]
    refine
      { store := hholds
        numbered := h.numbered.append_logged now s.batch
        ordered := ⟨sent ++ s.batch, by simpa using haccepted,
          List.rel_append hstamped (forall₂_logged now s.log.length s.batch)⟩
        offered := h.offered
        room := h.room
        batched := Nat.le_refl 0
        published := by rw [h.published, hpending, List.append_nil]
        streams := h.streams
        readers := fun j rd hrd => ?_ }
    obtain ⟨hstart, hlast, hgot⟩ := h.readers j rd hrd
    refine ⟨hstart, hlast.trans (by simp), ?_⟩
    rwa [List.take_append_of_le_length hlast]

/-- The writer takes a record out of the channel, and its batch never grows to 100. -/
lemma Inv.receive (h : s.Inv 99) (hpending : s.pending = []) {now : GoString}
    (hrun : s.receive now = some s') : s'.Inv 99 := by
  rw [Sink.receive] at hrun
  split at hrun
  · simp at hrun
  next r ch hch =>
    have hmoved : Inv 100 { s with ch := ch, batch := s.batch ++ [r] } := by
      obtain ⟨sent, haccepted, hstamped⟩ := h.ordered
      exact
        { h with
          ordered := ⟨sent, by simpa [hch] using haccepted, hstamped⟩
          room := by
            have := h.room
            rw [hch, List.length_cons] at this
            exact Nat.le_of_succ_le this
          batched := by
            rw [List.length_append, List.length_singleton]
            exact Nat.succ_le_succ h.batched }
    obtain rfl := Option.some.inj hrun
    split
    next => exact { hmoved.flush hpending now with batched := (hmoved.flush hpending now).batched.trans (by simp) }
    next hlt => exact { hmoved with batched := by omega }

lemma Inv.send (h : s.Inv 99) (r : Record) (hrun : s.step toLower (.send r) = some s') :
    s'.Inv 99 := by
  obtain rfl := Option.some.inj hrun
  split
  next hroom =>
    obtain ⟨sent, haccepted, hstamped⟩ := h.ordered
    exact
      { h with
        ordered := ⟨sent, by simp [haccepted], hstamped⟩
        offered := h.offered.append (.refl [r])
        room := by simpa using Nat.succ_le_of_lt hroom }
  next => exact { h with offered := h.offered.trans (List.sublist_append_left _ _) }

lemma Inv.broadcast (h : s.Inv 99) (hrun : s.step toLower .broadcast = some s') : s'.Inv 99 := by
  rw [step] at hrun
  split at hrun
  · simp at hrun
  next r pending hpending =>
    obtain rfl := Option.some.inj hrun
    refine
      { h with
        published := by simp [bcastSend, h.published, hpending]
        streams := fun i c hc => ?_ }
    obtain ⟨c, hold, rfl⟩ := Option.map_eq_some_iff.mp hc
    obtain ⟨hstart, hfollows⟩ := h.streams i c hold
    refine ⟨hstart.trans (by simp [bcastSend]), ?_⟩
    show Subscription.Follows 64 ((s.broadcast ++ [r]).drop c.start) _
    rw [List.drop_append_of_le_length hstart]
    exact hfollows.offer r

lemma Inv.stream (h : s.Inv 99) {i : ℕ} {o : Option StreamClient}
    (ho : ∀ c, o = some c → c.Fits s.broadcast) :
    Inv 99 { s with subs := Function.update s.subs i o } :=
  { h with
    streams := (Function.forall_update_iff s.subs fun _ o => ∀ c, o = some c → c.Fits s.broadcast).mpr
      ⟨ho, fun k _ => h.streams k⟩ }

lemma Inv.reader (h : s.Inv 99) {j : ℕ} {rd : Reader}
    (hrd : rd.Fits s.log) :
    Inv 99 { s with readers := Function.update s.readers j (some rd) } :=
  { h with
    readers := (Function.forall_update_iff s.readers fun _ o => ∀ rd, o = some rd → rd.Fits s.log).mpr
      ⟨fun _ h' => Option.some.inj h' ▸ hrd, fun k _ => h.readers k⟩ }

theorem Inv.step {l : SinkLabel} (h : s.Inv 99) (hrun : s.step toLower l = some s') : s'.Inv 99 := by
  cases l with
  | send r => exact h.send r hrun
  | receive now =>
      obtain ⟨hpending, hreceive⟩ := by simpa [Sink.step] using hrun
      exact h.receive hpending hreceive
  | tick now =>
      obtain ⟨hpending, rfl⟩ := by simpa [Sink.step] using hrun
      have hflush := h.flush hpending now
      exact { hflush with batched := hflush.batched.trans (Nat.zero_le 99) }
  | broadcast => exact h.broadcast hrun
  | subscribe i =>
      obtain ⟨-, rfl⟩ := by simpa [Sink.step] using hrun
      refine h.stream fun c hc => ?_
      obtain rfl := Option.some.inj hc
      exact ⟨Nat.le_refl _, by simpa using Subscription.follows_new 64⟩
  | deliver i =>
      obtain ⟨c, hc, sub, htake, rfl⟩ := by
        simpa [Sink.step, Option.bind_eq_some_iff, Option.map_eq_some_iff] using hrun
      obtain ⟨hstart, hfollows⟩ := h.streams i c hc
      refine h.stream fun c' hc' => ?_
      obtain rfl := Option.some.inj hc'
      exact ⟨hstart, hfollows.take htake⟩
  | unsubscribe i =>
      obtain rfl := Option.some.inj hrun
      exact h.stream fun c hc => by simp at hc
  | load j limit =>
      obtain ⟨-, rfl⟩ := by simpa [Sink.step] using hrun
      rw [h.store.query_load h.numbered]
      exact h.reader ⟨Nat.le_refl _, Nat.le_refl _, List.nil_sublist _⟩
  | poll j limit =>
      obtain ⟨rd, hrd, hlast, rfl⟩ := by
        simpa [Sink.step, Option.bind_eq_some_iff] using hrun
      rw [h.store.query_after h.numbered toLower (Nat.pos_of_ne_zero hlast)]
      exact h.reader ((h.readers j rd hrd).poll h.numbered h.store.pos (limit_pos _ _) rfl).1

theorem inv_of_run {capacity : ℤ} {as : List SinkLabel}
    (hrun : run (step toLower) (new capacity) as = some s) : s.Inv 99 :=
  run_invariant (fun _ _ _ h hstep => h.step hstep) (inv_new capacity) hrun

/-! ## From `Send` to the log -/

/-- `Send` finds room in the channel. -/
def FindsRoom (s : Sink) (l : SinkLabel) : Prop := l.sent ≠ none → s.ch.length < 4096

/-- What the writer leaves alone when it takes a record or flushes. -/
structure WriterKept (s s' : Sink) : Prop where
  subs : s'.subs = s.subs
  readers : s'.readers = s.readers
  offered : s'.offered = s.offered
  accepted : s'.accepted = s.accepted
  log : s.log <+: s'.log
  cap : s'.st.cap = s.st.cap

lemma flush_kept (h : s.st.Holds s.log) (now : GoString) : s.WriterKept (s.flush now) := by
  by_cases hbatch : s.batch = []
  · rw [flush, if_pos hbatch]
    exact ⟨rfl, rfl, rfl, rfl, List.prefix_rfl, rfl⟩
  · obtain ⟨st, -, hcap, heq⟩ := flush_eq h now hbatch
    rw [heq]
    exact ⟨rfl, rfl, rfl, rfl, List.prefix_append _ _, hcap⟩

lemma receive_kept (h : s.st.Holds s.log) {now : GoString} (hrun : s.receive now = some s') :
    s.WriterKept s' := by
  rw [receive] at hrun
  split at hrun
  · simp at hrun
  next r ch hch =>
    obtain rfl := Option.some.inj hrun
    split
    next =>
      have hkept := flush_kept (s := { s with ch := ch, batch := s.batch ++ [r] }) h now
      exact ⟨hkept.subs, hkept.readers, hkept.offered, hkept.accepted, hkept.log, hkept.cap⟩
    next => exact ⟨rfl, rfl, rfl, rfl, List.prefix_rfl, rfl⟩

lemma writer_kept {l : SinkLabel} (h : s.Inv 99) (hl : ∃ now, l = .receive now ∨ l = .tick now)
    (hrun : s.step toLower l = some s') : s.WriterKept s' := by
  obtain ⟨now, rfl | rfl⟩ := hl
  · obtain ⟨-, hreceive⟩ := by simpa [step] using hrun
    exact receive_kept h.store hreceive
  · obtain ⟨-, rfl⟩ := by simpa [step] using hrun
    exact flush_kept h.store now

lemma step_unsent {l : SinkLabel} (h : s.Inv 99) (hl : l.sent = none)
    (hrun : s.step toLower l = some s') : s'.offered = s.offered ∧ s'.accepted = s.accepted := by
  cases l with
  | send r => simp [SinkLabel.sent] at hl
  | receive now =>
      have hkept := writer_kept h ⟨now, .inl rfl⟩ hrun
      exact ⟨hkept.offered, hkept.accepted⟩
  | tick now =>
      have hkept := writer_kept h ⟨now, .inr rfl⟩ hrun
      exact ⟨hkept.offered, hkept.accepted⟩
  | broadcast =>
      rw [step] at hrun
      split at hrun
      · simp at hrun
      · obtain rfl := Option.some.inj hrun
        exact ⟨rfl, rfl⟩
  | subscribe | load =>
      obtain ⟨-, rfl⟩ := by simpa [step] using hrun
      exact ⟨rfl, rfl⟩
  | deliver =>
      obtain ⟨_, _, _, _, rfl⟩ := by
        simpa [step, Option.bind_eq_some_iff, Option.map_eq_some_iff] using hrun
      exact ⟨rfl, rfl⟩
  | unsubscribe =>
      obtain rfl := Option.some.inj hrun
      exact ⟨rfl, rfl⟩
  | poll =>
      obtain ⟨_, _, _, rfl⟩ := by simpa [step, Option.bind_eq_some_iff] using hrun
      exact ⟨rfl, rfl⟩

/-- **One step** keeps everything that is sent exactly when there is room for it. -/
lemma step_accepted_iff {l : SinkLabel} (h : s.Inv 99) (hrun : s.step toLower l = some s') :
    s'.accepted = s'.offered ↔ s.accepted = s.offered ∧ s.FindsRoom l := by
  cases hl : l.sent with
  | none =>
      obtain ⟨hoffered, haccepted⟩ := step_unsent h hl hrun
      rw [hoffered, haccepted, FindsRoom, hl]
      simp
  | some r =>
      obtain rfl : l = .send r := by
        cases l <;> simp_all [SinkLabel.sent]
      have hle := h.offered.length_le
      obtain rfl := Option.some.inj hrun
      simp only [FindsRoom, hl, ne_eq, reduceCtorEq, not_false_eq_true, forall_const]
      split
      next hroom => simp [hroom]
      next hfull =>
        refine iff_of_false (fun heq => ?_) fun hboth => hfull hboth.2
        have hlen := congrArg List.length heq
        simp at hlen
        omega

lemma offered_of_run {as : List SinkLabel} (h : s.Inv 99) (hrun : run (step toLower) s as = some s') :
    s'.offered = s.offered ++ as.filterMap (·.sent) := by
  induction as generalizing s with
  | nil =>
      cases hrun
      simp
  | cons l as ih =>
      obtain ⟨m, hm, hrest⟩ := run_cons_eq_some.mp hrun
      rw [ih (h.step hm) hrest]
      cases hl : l.sent with
      | none => rw [(step_unsent h hl hm).1, List.filterMap_cons_none hl]
      | some r =>
          obtain rfl : l = .send r := by
            cases l <;> simp_all [SinkLabel.sent]
          have hm' : m.offered = s.offered ++ [r] := by
            obtain rfl := Option.some.inj hm
            split <;> rfl
          rw [List.filterMap_cons_some hl, hm', List.append_assoc, List.singleton_append]

/-- **From `Send` to the log.**  In every run in memory mode, what was accepted is in the log, in the batch of
the writer and in the channel, in the order of the calls, each record once; the records of the log are
numbered from 1 on without a gap; and something was dropped exactly if a call found 4096 records waiting. -/
theorem accepted_order {capacity : ℤ} {as : List SinkLabel}
    (hrun : run (step toLower) (new capacity) as = some s) :
    s.Ordered ∧ Numbered s.log ∧ s.ch.length ≤ 4096 ∧ s.batch.length < 100 ∧
      s.accepted.Sublist (as.filterMap (·.sent)) ∧
      (s.accepted = as.filterMap (·.sent) ↔ Along (step toLower) FindsRoom (new capacity) as) := by
  have h := inv_of_run hrun
  have hoffered : s.offered = as.filterMap (·.sent) := by
    simpa [new] using offered_of_run (inv_new capacity) hrun
  have hiff := run_iff_along (I := Inv 99) (P := fun s => s.accepted = s.offered) (C := FindsRoom)
    (fun _ _ _ h hstep => h.step hstep) (fun _ _ _ h hstep => step_accepted_iff h hstep)
    (inv_new capacity) hrun
  refine ⟨h.ordered, h.numbered, h.room, Nat.lt_succ_of_le h.batched, hoffered ▸ h.offered, ?_⟩
  rw [← hoffered, hiff]
  exact and_iff_right rfl

/-! ## From the log to the streams -/

/-- The channel of a stream client has room for what is broadcast. -/
def StreamRoom (i : ℕ) (s : Sink) (l : SinkLabel) : Prop :=
  l = .broadcast → ∀ c, s.subs i = some c → c.sub.queue.length < 64

lemma step_missed {i : ℕ} {l : SinkLabel} (h : s.Inv 99)
    (hmissed : ∀ c, s.subs i = some c → c.sub.missed = 0) (hroom : s.StreamRoom i l)
    (hrun : s.step toLower l = some s') : ∀ c, s'.subs i = some c → c.sub.missed = 0 := by
  cases l with
  | send =>
      obtain rfl := Option.some.inj hrun
      split <;> exact hmissed
  | receive now => rwa [(writer_kept h ⟨now, .inl rfl⟩ hrun).subs]
  | tick now => rwa [(writer_kept h ⟨now, .inr rfl⟩ hrun).subs]
  | broadcast =>
      rw [step] at hrun
      split at hrun
      · simp at hrun
      next r pending _ =>
        obtain rfl := Option.some.inj hrun
        intro c hc
        obtain ⟨c, hold, rfl⟩ := Option.map_eq_some_iff.mp hc
        simpa [Subscription.offer, hroom rfl c hold] using hmissed c hold
  | subscribe k =>
      obtain ⟨-, rfl⟩ := by simpa [step] using hrun
      exact (Function.forall_update_iff s.subs fun x o => x = i → ∀ c, o = some c → c.sub.missed = 0).mpr
        ⟨fun _ c hc => Option.some.inj hc ▸ rfl, fun x _ hx => hx ▸ hmissed⟩ i rfl
  | deliver k =>
      obtain ⟨c, hc, sub, htake, rfl⟩ := by
        simpa [step, Option.bind_eq_some_iff, Option.map_eq_some_iff] using hrun
      refine (Function.forall_update_iff s.subs fun x o => x = i → ∀ c, o = some c → c.sub.missed = 0).mpr
        ⟨fun hx c' hc' => ?_, fun x _ hx => hx ▸ hmissed⟩ i rfl
      obtain rfl := Option.some.inj hc'
      exact (Subscription.missed_take htake).trans (hmissed c (hx ▸ hc))
  | unsubscribe k =>
      obtain rfl := Option.some.inj hrun
      exact (Function.forall_update_iff s.subs fun x o => x = i → ∀ c, o = some c → c.sub.missed = 0).mpr
        ⟨fun _ c hc => by simp at hc, fun x _ hx => hx ▸ hmissed⟩ i rfl
  | load =>
      obtain ⟨-, rfl⟩ := by simpa [step] using hrun
      exact hmissed
  | poll =>
      obtain ⟨_, _, _, rfl⟩ := by simpa [step, Option.bind_eq_some_iff] using hrun
      exact hmissed

/-- **A stream is a part of the log.**  In every run in memory mode, what a client of the stream handler has
been sent, and has waiting in its channel, are records broadcast since it came, in their order and with
increasing numbers.  It misses as many as were broadcast while 64 were waiting, so that a client whose channel
always had room has them all. -/
theorem stream_follows {capacity : ℤ} {as : List SinkLabel} {i : ℕ} {c : StreamClient}
    (hrun : run (step toLower) (new capacity) as = some s) (hc : s.subs i = some c) :
    let shown := c.sub.got ++ c.sub.queue
    s.broadcast <+: s.log ∧ shown.Sublist (s.broadcast.drop c.start) ∧
      (shown.map (·.id)).Pairwise (· < ·) ∧ c.sub.queue.length ≤ 64 ∧
      shown.length + c.sub.missed = s.broadcast.length - c.start ∧
      (Along (step toLower) (StreamRoom i) (new capacity) as → shown = s.broadcast.drop c.start) := by
  have h := inv_of_run hrun
  obtain ⟨hstart, hfollows⟩ := h.streams i c hc
  have hbroadcast : s.broadcast <+: s.log := h.published ▸ List.prefix_append _ _
  refine ⟨hbroadcast, hfollows.sublist, ?_, hfollows.room, ?_, fun hroom => ?_⟩
  · exact h.numbered.increasing.sublist
      (((hfollows.sublist.trans (List.drop_sublist _ _)).trans hbroadcast.sublist).map _)
  · rw [hfollows.count, List.length_drop]
  · have hmissed := run_invariant_of_along
      (I := fun s => s.Inv 99 ∧ ∀ c, s.subs i = some c → c.sub.missed = 0)
      (fun _ _ _ hI hC hstep => ⟨hI.1.step hstep, step_missed hI.1 hI.2 hC hstep⟩)
      ⟨inv_new capacity, fun _ hnew => by simp [new] at hnew⟩ hroom hrun
    exact hfollows.eq_iff.mpr (hmissed.2 c hc)

/-! ## From the log to the readers -/

/-- A reader that polls is no more records behind than the store keeps. -/
def NotBehind (j : ℕ) (s : Sink) (l : SinkLabel) : Prop :=
  ∀ limit rd, l = .poll j limit → s.readers j = some rd → s.log.length ≤ rd.last + s.st.cap

/-- **One step** leaves a reader with all of the log exactly when it is not a poll that comes too late. -/
lemma step_complete_iff {j : ℕ} {l : SinkLabel} (h : s.Inv 99) (hrun : s.step toLower l = some s') :
    (∀ rd, s'.readers j = some rd → rd.Complete s'.log) ↔
      (∀ rd, s.readers j = some rd → rd.Complete s.log) ∧ s.NotBehind j l := by
  have hsame (hreaders : s'.readers j = s.readers j) (hlog : s.log <+: s'.log) :
      (∀ rd, s'.readers j = some rd → rd.Complete s'.log) ↔
        ∀ rd, s.readers j = some rd → rd.Complete s.log := by
    obtain ⟨newer, hnewer⟩ := hlog
    rw [hreaders, ← hnewer]
    refine forall_congr' fun rd => forall_congr' fun hrd => ?_
    rw [Reader.Complete, List.take_append_of_le_length (h.readers j rd hrd).2.1, Reader.Complete]
  have hno (hl : ∀ limit, l ≠ .poll j limit) : s.NotBehind j l := fun limit _ heq => absurd heq (hl limit)
  cases l with
  | send =>
      obtain rfl := Option.some.inj hrun
      rw [and_iff_left (hno (by simp))]
      split <;> rfl
  | receive now =>
      have hkept := writer_kept h ⟨now, .inl rfl⟩ hrun
      rw [and_iff_left (hno (by simp)), hsame (congrFun hkept.readers j) hkept.log]
  | tick now =>
      have hkept := writer_kept h ⟨now, .inr rfl⟩ hrun
      rw [and_iff_left (hno (by simp)), hsame (congrFun hkept.readers j) hkept.log]
  | broadcast =>
      rw [step] at hrun
      split at hrun
      · simp at hrun
      · obtain rfl := Option.some.inj hrun
        rw [and_iff_left (hno (by simp)), hsame rfl List.prefix_rfl]
  | subscribe =>
      obtain ⟨-, rfl⟩ := by simpa [step] using hrun
      rw [and_iff_left (hno (by simp))]
  | deliver =>
      obtain ⟨_, _, _, _, rfl⟩ := by
        simpa [step, Option.bind_eq_some_iff, Option.map_eq_some_iff] using hrun
      rw [and_iff_left (hno (by simp))]
  | unsubscribe =>
      obtain rfl := Option.some.inj hrun
      rw [and_iff_left (hno (by simp))]
  | load k limit =>
      obtain ⟨hnone, rfl⟩ := by simpa [step] using hrun
      rw [and_iff_left (hno (by simp))]
      by_cases hk : j = k
      · subst hk
        simp [h.store.query_load h.numbered, hnone, Reader.Complete]
      · exact hsame (Function.update_of_ne hk _ _) List.prefix_rfl
  | poll k limit =>
      obtain ⟨rd, hrd, hlast, rfl⟩ := by simpa [step, Option.bind_eq_some_iff] using hrun
      by_cases hk : j = k
      · subst hk
        have hpoll := ((h.readers j rd hrd).poll h.numbered h.store.pos (limit_pos rd.last limit) rfl).2
        rw [h.store.query_after h.numbered toLower (Nat.pos_of_ne_zero hlast)]
        simpa [NotBehind, hrd] using hpoll
      · rw [and_iff_left (hno (by simpa using Ne.symm hk))]
        exact hsame (Function.update_of_ne hk _ _) List.prefix_rfl

/-- **Polling.**  In every run in memory mode, a reader has been given records of the log between the number
it began with and the last one it has, each at most once and in order; and it has been given all of them
exactly if no poll of its found it more records behind than the store keeps.  A reader polls when it has a
number: a poll with the number 0, which the handler takes for a first request, is no step. -/
theorem poll_complete {capacity : ℤ} {as : List SinkLabel} {j : ℕ} {rd : Reader}
    (hrun : run (step toLower) (new capacity) as = some s) (hrd : s.readers j = some rd) :
    rd.got.Sublist ((s.log.take rd.last).drop rd.start) ∧ (rd.got.map (·.id)).Pairwise (· < ·) ∧
      (rd.got = (s.log.take rd.last).drop rd.start ↔
        Along (step toLower) (NotBehind j) (new capacity) as) := by
  have h := inv_of_run hrun
  have hgot := (h.readers j rd hrd).2.2
  refine ⟨hgot, h.numbered.increasing.sublist ?_, ?_⟩
  · exact ((hgot.trans (List.drop_sublist _ _)).trans (List.take_sublist _ _)).map _
  · have hiff := run_iff_along (I := Inv 99)
      (P := fun s => ∀ rd, s.readers j = some rd → rd.Complete s.log) (C := NotBehind j)
      (fun _ _ _ h hstep => h.step hstep) (fun _ _ _ h hstep => step_complete_iff h hstep)
      (inv_new capacity) hrun
    rw [hrd] at hiff
    simpa [new, Reader.Complete] using hiff

/-! ## Everything accepted is stored -/

/-- How far the records that wait are from being broadcast. -/
def waiting (s : Sink) : ℕ := 3 * s.ch.length + 2 * s.batch.length + s.pending.length

/-- The writer has nothing left to do. -/
def Drained (s : Sink) : Prop := s.ch = [] ∧ s.batch = [] ∧ s.pending = []

/-- The writer has something to do, and does it. -/
lemma writer_progress (toLower : GoString → GoString) (h : s.Inv 99) :
    s.Drained ∨ ∃ l s', l.ofWriter = true ∧ s.step toLower l = some s' ∧
      s'.accepted = s.accepted ∧ s'.waiting < s.waiting := by
  have hlogged : ∀ (n : ℕ) (batch : List Record), (logged [] n batch).length = batch.length :=
    fun n batch => by simp [logged]
  cases hpending : s.pending with
  | cons r pending =>
      refine .inr ⟨.broadcast, { s with pending := pending }.bcastSend r, rfl,
        by simp only [step, hpending], rfl, ?_⟩
      simp [waiting, bcastSend, hpending]
  | nil =>
      cases hch : s.ch with
      | cons r ch =>
          have hmoved : s.receive [] = some
              (if (s.batch ++ [r]).length ≥ 100 then
                flush { s with ch := ch, batch := s.batch ++ [r] } []
              else { s with ch := ch, batch := s.batch ++ [r] }) := by
            rw [receive, hch]
          have hrun : s.step toLower (.receive []) = s.receive [] := by rw [step, if_pos hpending]
          refine .inr ⟨.receive [], _, rfl, hrun.trans hmoved, ?_, ?_⟩
          · exact (receive_kept h.store hmoved).accepted
          · split
            next =>
              obtain ⟨st, -, -, heq⟩ :=
                flush_eq (s := { s with ch := ch, batch := s.batch ++ [r] }) h.store [] (by simp)
              rw [heq]
              simp [waiting, hpending, hch, hlogged]
              omega
            next =>
              simp [waiting, hpending, hch]
              omega
      | nil =>
          by_cases hbatch : s.batch = []
          · exact .inl ⟨hch, hbatch, hpending⟩
          · obtain ⟨st, -, -, heq⟩ := flush_eq h.store [] hbatch
            refine .inr ⟨.tick [], s.flush [], rfl, by rw [step, if_pos hpending],
              (flush_kept h.store []).accepted, ?_⟩
            have hpos := List.length_pos_of_ne_nil hbatch
            rw [heq]
            simp [waiting, hpending, hch, hlogged]
            omega

/-- **Nothing accepted is stuck.**  From every state that a run in memory mode reaches, the writer alone
brings all that was accepted into the log and broadcasts it, in no more steps than three for each record that
waits. -/
theorem drains {capacity : ℤ} {as : List SinkLabel}
    (hrun : run (step toLower) (new capacity) as = some s) :
    ∃ bs s', (∀ l ∈ bs, l.ofWriter = true) ∧
      bs.length ≤ 3 * s.ch.length + 2 * s.batch.length + s.pending.length ∧
      run (step toLower) s bs = some s' ∧ s'.accepted = s.accepted ∧ s'.broadcast = s'.log ∧
      List.Forall₂ Record.IsStamped s.accepted s'.log := by
  have hprogress : ∀ t : Sink, t.Inv 99 ∧ t.accepted = s.accepted → t.Drained ∨
      ∃ l t', l.ofWriter = true ∧ t.step toLower l = some t' ∧
        (t'.Inv 99 ∧ t'.accepted = s.accepted) ∧ t'.waiting < t.waiting := by
    rintro t ⟨ht, haccepted⟩
    refine (writer_progress toLower ht).imp_right ?_
    rintro ⟨l, t', hl, hstep, hkept, hlt⟩
    exact ⟨l, t', hl, hstep, ⟨ht.step hstep, hkept.trans haccepted⟩, hlt⟩
  obtain ⟨bs, s', hwriter, hlen, hbs, ⟨h, haccepted⟩, hch, hbatch, hpending⟩ :=
    run_until hprogress ⟨inv_of_run hrun, rfl⟩
  obtain ⟨sent, hsent, hstamped⟩ := h.ordered
  refine ⟨bs, s', hwriter, hlen, hbs, haccepted, ?_, ?_⟩
  · rw [h.published, hpending, List.append_nil]
  · rw [hbatch, hch, List.append_nil, List.append_nil] at hsent
    rwa [← haccepted, hsent]

/-! ## A run -/

/-- Two records, with a stream that comes between them and a reader that polls for the second. -/
def twoRecords : List SinkLabel :=
  [.send { path := ascii "/a" }, .receive [], .tick (ascii "noon"), .broadcast, .subscribe 0, .load 0 500,
    .send { path := ascii "/b" }, .receive [], .tick (ascii "one"), .broadcast, .deliver 0, .poll 0 200]

/-- The log of the run. -/
theorem accepted_order_twoRecords :
    ∃ s, run (step id) (new 5) twoRecords = some s ∧ s.Ordered ∧ Numbered s.log := by
  obtain ⟨s, hrun⟩ : ∃ s, run (step id) (new 5) twoRecords = some s := ⟨_, rfl⟩
  exact ⟨s, hrun, (accepted_order hrun).1, (accepted_order hrun).2.1⟩

/-- The stream of the run. -/
theorem stream_follows_twoRecords :
    ∃ s c, run (step id) (new 5) twoRecords = some s ∧ s.subs 0 = some c ∧
      (c.sub.got ++ c.sub.queue).Sublist (s.broadcast.drop c.start) := by
  obtain ⟨s, c, hrun, hc⟩ : ∃ s c, run (step id) (new 5) twoRecords = some s ∧ s.subs 0 = some c :=
    ⟨_, _, rfl, rfl⟩
  exact ⟨s, c, hrun, hc, (stream_follows hrun hc).2.1⟩

/-- The reader of the run. -/
theorem poll_complete_twoRecords :
    ∃ s rd, run (step id) (new 5) twoRecords = some s ∧ s.readers 0 = some rd ∧
      rd.got.Sublist ((s.log.take rd.last).drop rd.start) := by
  obtain ⟨s, rd, hrun, hrd⟩ : ∃ s rd, run (step id) (new 5) twoRecords = some s ∧
      s.readers 0 = some rd := ⟨_, _, rfl, rfl⟩
  exact ⟨s, rd, hrun, hrd, (poll_complete hrun hrd).1⟩

/-- The run is drained. -/
theorem drains_twoRecords :
    ∃ s bs s', run (step id) (new 5) twoRecords = some s ∧ run (step id) s bs = some s' ∧
      List.Forall₂ Record.IsStamped s.accepted s'.log := by
  obtain ⟨s, hrun⟩ : ∃ s, run (step id) (new 5) twoRecords = some s := ⟨_, rfl⟩
  obtain ⟨bs, s', -, -, hbs, -, -, hlog⟩ := drains hrun
  exact ⟨s, bs, s', hrun, hbs, hlog⟩

end Sink

end Luwes.RequestUi
