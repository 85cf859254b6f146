import Luwes.Sahl.Ledger
import Luwes.Sahl.Request
import Mathlib.Data.List.Basic

/-!
# Strings that show host memory (`sahl/writer.go`, `sahl/request.go`)

A Go string is an address and a length, and `Peek` returns one whose address is the host's.  The host
keeps the bytes until the hook ends or a header is set (`abi.h`, `get_header`).  `flush` runs in the hook
of the handler, but it sets headers first, so from its second entry on it may read memory that the host
has given to something else.

Tags are a slice, and `tags...` hands over the caller's own: the Writer keeps it as it is, and a handler
that writes to it afterwards changes what `flush` passes.

The writer of this module queues strings and slices, where `Writer` queues their bytes.  Both apply the same
in whatever memory there is after the first header exactly when nothing that is read then shows host memory
and no slice of tags has been given other bytes (`flush_queued_iff`).

This is about handlers that are done when they return: none has called `Go`, so `Send` is not deferred.
-/

namespace Luwes.Sahl

/-- The memory of the host. -/
abbrev HostMemory := ℕ → UInt8

/-- A Go string: bytes that the Go runtime keeps, or an address and a length in the host's memory. -/
inductive HostString
  | owned (bytes : GoString)
  | host (addr len : ℕ)

namespace HostString

/-- The bytes of the string in a memory. -/
def read (m : HostMemory) : HostString → GoString
  | owned bytes => bytes
  | host addr len => (List.range len).map fun i => m (addr + i)

/-- Does the string show host memory?  An empty one shows none. -/
def isHost : HostString → Bool
  | owned _ => false
  | host _ len => len != 0

end HostString

/-! ## Reading headers -/

namespace Header

/-- `Peek` as a string, where the host has the value of a key at `addr`: the cached copy, or the host's
memory. -/
def peekString (h : Header) (addr : GoString → ℕ) (key : GoString) : Option HostString :=
  let lower := asciiToLower key
  match h.cache.lookup lower with
  | some v => some (.owned v)
  | none => (h.lookup lower).map fun buf => .host (addr lower) buf.len

/-- While the host keeps the values where they are, `Peek` shows what it returns. -/
lemma peekString_read {h : Header} {addr : GoString → ℕ} {m : HostMemory}
    (hm : ∀ lower buf, h.lookup lower = some buf →
      (HostString.host (addr lower) buf.len).read m = buf.bytes) (key : GoString) :
    (h.peekString addr key).map (HostString.read m) = h.peek key := by
  rw [peekString, peek]
  cases h.cache.lookup (asciiToLower key) with
  | some v => rfl
  | none =>
      cases hbuf : h.lookup (asciiToLower key) with
      | none => rfl
      | some buf => simpa using hm _ buf hbuf

end Header

/-! ## Slices of tags -/

/-- The arrays of strings that a handler has made. -/
abbrev TagMemory := List (List HostString)

/-- A slice of an array. -/
structure TagSlice where
  array : ℕ
  start : ℕ
  len : ℕ

/-- The strings that the slice shows. -/
def TagSlice.strings (a : TagMemory) (t : TagSlice) : List HostString :=
  ((a.getD t.array []).drop t.start).take t.len

/-! ## What is queued -/

/-- A `headerMut`. -/
structure HeaderStrings where
  key : HostString
  value : HostString

/-- The value of a `metaMut`: a string, or a value that is no string. -/
inductive MetadataString
  | string (s : HostString)
  | other (v : MetadataValue)

/-- A `metaMut`. -/
structure MetaStrings where
  ns : HostString
  key : HostString
  value : MetadataString

/-- A `counterMut`. -/
structure CounterStrings where
  id : ℕ
  n : ℕ
  tags : TagSlice
  hist : Bool

/-- The bytes of a header. -/
def HeaderStrings.read (m : HostMemory) (h : HeaderStrings) : HeaderMut :=
  { key := h.key.read m, value := h.value.read m }

/-- The strings of a header. -/
def HeaderStrings.strings (h : HeaderStrings) : List HostString := [h.key, h.value]

/-- The bytes of a metadata value. -/
def MetadataString.read (m : HostMemory) : MetadataString → MetadataValue
  | .string s => .string (s.read m)
  | .other v => v

/-- The strings of a metadata value. -/
def MetadataString.strings : MetadataString → List HostString
  | .string s => [s]
  | .other _ => []

/-- The bytes of a metadata entry. -/
def MetaStrings.read (m : HostMemory) (x : MetaStrings) : MetaMut :=
  { ns := x.ns.read m, key := x.key.read m, value := x.value.read m }

/-- The strings of a metadata entry. -/
def MetaStrings.strings (x : MetaStrings) : List HostString := x.ns :: x.key :: x.value.strings

/-- The bytes of a metric. -/
def CounterStrings.read (a : TagMemory) (m : HostMemory) (x : CounterStrings) : CounterMut :=
  { id := x.id, n := x.n, tags := (x.tags.strings a).map (HostString.read m), hist := x.hist }

/-- The strings of a metric. -/
def CounterStrings.strings (a : TagMemory) (x : CounterStrings) : List HostString := x.tags.strings a

/-- The bytes of a queue entry. -/
def Queued.map {α β : Type} (f : α → β) (q : Queued α) : Queued β := { val := f q.val, id := q.id }

/-- The queues of a `Writer`, with the fields that decide what is queued and applied. -/
structure StringWriter where
  reqMuts : List (Queued HeaderStrings) := []
  respHdrMuts : List (Queued HeaderStrings) := []
  metaMuts : List (Queued MetaStrings) := []
  counterMuts : List (Queued CounterStrings) := []
  responded : Bool := false
  routeCleared : Bool := false

/-- The calls of a handler that queue, or respond. -/
inductive StringCall
  | send (statusCode : ℤ) (body : HostString)
  | setResponseHeader (h : HeaderStrings)
  | setRequestHeader (h : HeaderStrings)
  | setMetadata (x : MetaStrings)
  | clearRouteCache
  | incrementCounter (id n : ℕ) (tags : TagSlice)
  | recordHistogram (id n : ℕ) (tags : TagSlice)

/-- The call with the bytes its strings have. -/
def StringCall.read (a : TagMemory) (m : HostMemory) : StringCall → UserCall
  | .send statusCode body => .send statusCode (body.read m)
  | .setResponseHeader h => .setResponseHeader (h.key.read m) (h.value.read m)
  | .setRequestHeader h => .setRequestHeader (h.key.read m) (h.value.read m)
  | .setMetadata x => .setMetadata (x.ns.read m) (x.key.read m) (x.value.read m)
  | .clearRouteCache => .clearRouteCache
  | .incrementCounter id n tags => .incrementCounter id n ((tags.strings a).map (HostString.read m))
  | .recordHistogram id n tags => .recordHistogram id n ((tags.strings a).map (HostString.read m))

/-- A handler that is done when it returns.  What `Get` returns is its own; what `Peek` returns may be the
host's, and comes with its bytes.  `make` is the array of a variadic call or of a slice that the handler
keeps, and `write` assigns to an element of one. -/
inductive StringHandler
  | ret
  | get (key : GoString) (k : GoString → StringHandler)
  | peek (key : GoString) (k : Option (HostString × GoString) → StringHandler)
  | make (strings : List HostString) (k : ℕ → StringHandler)
  | write (array i : ℕ) (s : HostString) (k : StringHandler)
  | call (c : StringCall) (k : StringHandler)

namespace StringHandler

/-- What `Peek` tells a handler. -/
def peeked (addr : GoString → ℕ) (h : Header) (key : GoString) : Option (HostString × GoString) :=
  (h.peekString addr key).bind fun s => (h.peek key).map fun v => (s, v)

/-- The calls a handler makes, with the request's `Header`, while the host has the values at `addr`; each
with the arrays as they are then. -/
def calls (addr : GoString → ℕ) : Header → TagMemory → StringHandler → List (TagMemory × StringCall)
  | _, _, .ret => []
  | h, a, .get key k => calls addr (h.get key).2 a (k (h.get key).1)
  | h, a, .peek key k => calls addr h a (k (peeked addr h key))
  | h, a, .make strings k => calls addr h (a ++ [strings]) (k a.length)
  | h, a, .write array i s k => calls addr h (a.modify array fun xs => xs.set i s) k
  | h, a, .call c k => (a, c) :: calls addr h a k

/-- The arrays when the handler returns. -/
def tagsAfter (addr : GoString → ℕ) : Header → TagMemory → StringHandler → TagMemory
  | _, a, .ret => a
  | h, a, .get key k => tagsAfter addr (h.get key).2 a (k (h.get key).1)
  | h, a, .peek key k => tagsAfter addr h a (k (peeked addr h key))
  | h, a, .make strings k => tagsAfter addr h (a ++ [strings]) (k a.length)
  | h, a, .write array i s k => tagsAfter addr h (a.modify array fun xs => xs.set i s) k
  | h, a, .call _ k => tagsAfter addr h a k

end StringHandler

/-- The metric that a call queues. -/
def StringCall.metric (id : CallId) : StringCall → List (Queued CounterStrings)
  | .incrementCounter metric n tags => [⟨⟨metric, n, tags, false⟩, id⟩]
  | .recordHistogram metric n tags => [⟨⟨metric, n, tags, true⟩, id⟩]
  | _ => []

/-- The tags of the call show in the end what they have shown when it was made. -/
def StringCall.TagsKept (m : HostMemory) (before after : TagMemory) : StringCall → Prop
  | .incrementCounter _ _ tags | .recordHistogram _ _ tags =>
    (tags.strings after).map (HostString.read m) = (tags.strings before).map (HostString.read m)
  | _ => True

instance (m : HostMemory) (before after : TagMemory) (c : StringCall) :
    Decidable (c.TagsKept m before after) :=
  match c with
  | .incrementCounter _ _ _ | .recordHistogram _ _ _ => inferInstanceAs (Decidable (_ = _))
  | .send _ _ | .setResponseHeader _ | .setRequestHeader _ | .setMetadata _ | .clearRouteCache =>
    isTrue trivial

namespace StringWriter

/-- The method that a call names.  `SendBytes` calls the host, and what it passes is read then. -/
def userCall (w : StringWriter) (m : HostMemory) (id : CallId) :
    StringCall → StringWriter × List HandleCall
  | .send statusCode body =>
    if w.responded then (w, [])
    else
      ({ w with responded := true },
        [.sendLocalResponse
          { statusCode := UInt32.ofInt statusCode
            headers := w.respHdrMuts.map (·.map (HeaderStrings.read m))
            body := body.read m
            sender := id } (ascii "sahl")])
  | .setResponseHeader h =>
    if w.responded then (w, []) else ({ w with respHdrMuts := w.respHdrMuts ++ [⟨h, id⟩] }, [])
  | .setRequestHeader h =>
    if w.responded then (w, []) else ({ w with reqMuts := w.reqMuts ++ [⟨h, id⟩] }, [])
  | .setMetadata x =>
    if w.responded then (w, []) else ({ w with metaMuts := w.metaMuts ++ [⟨x, id⟩] }, [])
  | .clearRouteCache => ({ w with routeCleared := true }, [])
  | .incrementCounter metric n tags =>
    ({ w with counterMuts := w.counterMuts ++ [⟨⟨metric, n, tags, false⟩, id⟩] }, [])
  | .recordHistogram metric n tags =>
    ({ w with counterMuts := w.counterMuts ++ [⟨⟨metric, n, tags, true⟩, id⟩] }, [])

/-- The calls of a handler, numbered from `seq` on; it calls no header setter, so the memory stays. -/
def queue (m : HostMemory) (request : ℕ) :
    ℕ → StringWriter → List (TagMemory × StringCall) → StringWriter
  | _, w, [] => w
  | seq, w, c :: cs => queue m request (seq + 1) (w.userCall m ⟨request, seq⟩ c.2).1 cs

/-- The loop over `reqMuts` of `flush`: `mem n` is the host's memory after `n` headers are set. -/
def setHeaders (mem : ℕ → HostMemory) : ℕ → List (Queued HeaderStrings) → List HandleCall
  | _, [] => []
  | n, h :: hs => .headerSet (h.map (HeaderStrings.read (mem n))) :: setHeaders mem (n + 1) hs

/-- `flush`, with the arrays as the handler has left them. -/
def flush (w : StringWriter) (mem : ℕ → HostMemory) (a : TagMemory) (continueReq : Bool) :
    List HandleCall :=
  if w.responded then []
  else
    let m := mem w.reqMuts.length
    setHeaders mem 0 w.reqMuts ++
      w.metaMuts.map (fun x => .setMetadata (x.map (MetaStrings.read m))) ++
      (if w.routeCleared then [.clearRouteCache] else []) ++
      w.counterMuts.map (fun x => Writer.counterCall (x.map (CounterStrings.read a m))) ++
      (if continueReq then [.continueRequest] else [])

/-- What `flush` applies has been queued with the same bytes: nothing that it reads after it has set a header
shows host memory, and no tags of a call have been given other bytes. -/
def Lasting (w : StringWriter) (m : HostMemory) (after : TagMemory) (cs : List (TagMemory × StringCall)) :
    Prop :=
  w.responded = true ∨
    (∀ h ∈ w.reqMuts.tail, ∀ s ∈ h.val.strings, s.isHost = false) ∧
      (w.reqMuts = [] ∨
        (∀ x ∈ w.metaMuts, ∀ s ∈ x.val.strings, s.isHost = false) ∧
          ∀ x ∈ w.counterMuts, ∀ s ∈ x.val.strings after, s.isHost = false) ∧
      ∀ c ∈ cs, c.2.TagsKept m c.1 after

instance (w : StringWriter) (m : HostMemory) (after : TagMemory) (cs : List (TagMemory × StringCall)) :
    Decidable (w.Lasting m after cs) :=
  inferInstanceAs (Decidable (_ ∨ _ ∧ (_ ∨ _ ∧ _) ∧ _))

/-- The `Writer` whose queues hold the bytes that the strings have in a memory, and these metrics. -/
def read (w : StringWriter) (m : HostMemory) (counters : List (Queued CounterMut)) (base : Writer) :
    Writer :=
  { base with
    reqMuts := w.reqMuts.map (·.map (HeaderStrings.read m))
    respHdrMuts := w.respHdrMuts.map (·.map (HeaderStrings.read m))
    metaMuts := w.metaMuts.map (·.map (MetaStrings.read m))
    counterMuts := counters
    responded := w.responded
    routeCleared := w.routeCleared }

/-- The metrics of a handler's calls, as slices. -/
def metrics (request : ℕ) : ℕ → List (TagMemory × StringCall) → List (Queued CounterStrings)
  | _, [] => []
  | seq, c :: cs => c.2.metric ⟨request, seq⟩ ++ metrics request (seq + 1) cs

/-- The metrics of a handler's calls, each with the bytes that its tags have when it is queued. -/
def metricBytes (m : HostMemory) (request : ℕ) :
    ℕ → List (TagMemory × StringCall) → List (Queued CounterMut)
  | _, [] => []
  | seq, c :: cs =>
    (c.2.metric ⟨request, seq⟩).map (·.map (CounterStrings.read c.1 m)) ++
      metricBytes m request (seq + 1) cs

/-! ## The queues hold what the calls had -/

variable {w : StringWriter} {m : HostMemory} {base : Writer} {counters : List (Queued CounterMut)}
  {a : TagMemory}

/-- One call queues the same strings as bytes, and calls the host with the same bytes. -/
lemma userCall_read (hgo : base.goStarted = false) (id : CallId) (c : StringCall) :
    (w.read m counters base).userCall id (c.read a m) =
      ((w.userCall m id c).1.read m (counters ++ (c.metric id).map (·.map (CounterStrings.read a m))) base,
        (w.userCall m id c).2) := by
  cases c with
  | send statusCode body =>
      cases hr : w.responded with
      | false =>
          simp [userCall, Writer.userCall, Writer.sendBytes, StringCall.read, StringCall.metric, read, hr,
            hgo]
      | true =>
          simp [userCall, Writer.userCall, Writer.sendBytes, StringCall.read, StringCall.metric, read, hr]
  | setResponseHeader h =>
      cases hr : w.responded <;>
        simp [userCall, Writer.userCall, Writer.setResponseHeader, StringCall.read, StringCall.metric, read,
          hr, Queued.map, HeaderStrings.read]
  | setRequestHeader h =>
      cases hr : w.responded <;>
        simp [userCall, Writer.userCall, Writer.setRequestHeader, StringCall.read, StringCall.metric, read,
          hr, Queued.map, HeaderStrings.read]
  | setMetadata x =>
      cases hr : w.responded <;>
        simp [userCall, Writer.userCall, Writer.setMetadata, StringCall.read, StringCall.metric, read, hr,
          Queued.map, MetaStrings.read]
  | clearRouteCache =>
      simp [userCall, Writer.userCall, Writer.clearRouteCache, StringCall.read, StringCall.metric, read]
  | incrementCounter metric n tags =>
      simp [userCall, Writer.userCall, Writer.incrementCounter, Writer.queueMetric, StringCall.read,
        StringCall.metric, read, Queued.map, CounterStrings.read]
  | recordHistogram metric n tags =>
      simp [userCall, Writer.userCall, Writer.recordHistogram, Writer.queueMetric, StringCall.read,
        StringCall.metric, read, Queued.map, CounterStrings.read]

/-- The queues of a handler's Writer hold the bytes its strings had when it queued them. -/
lemma queue_read (who : Actor) (hgo : base.goStarted = false) (cs : List (TagMemory × StringCall))
    {g : Ledger} (hw : g.writer = w.read m counters base) :
    (cs.foldl (fun g c => g.userCall who (c.2.read c.1 m)) g).writer =
      (queue m g.request g.seq w cs).read m (counters ++ metricBytes m g.request g.seq cs) base := by
  induction cs generalizing g w counters with
  | nil => rw [List.foldl_nil, hw, queue, metricBytes, List.append_nil]
  | cons c cs ih =>
      have hstep : (g.userCall who (c.2.read c.1 m)).writer =
          (w.userCall m ⟨g.request, g.seq⟩ c.2).1.read m
            (counters ++ (c.2.metric ⟨g.request, g.seq⟩).map (·.map (CounterStrings.read c.1 m))) base := by
        rw [Ledger.userCall, hw, userCall_read hgo]
      rw [List.foldl_cons, ih hstep, queue, metricBytes, ← List.append_assoc]
      rfl

lemma userCall_counterMuts (id : CallId) (c : StringCall) :
    (w.userCall m id c).1.counterMuts = w.counterMuts ++ c.metric id := by
  cases c with
  | send | setResponseHeader | setRequestHeader | setMetadata =>
      simp only [userCall, StringCall.metric, List.append_nil]
      split_ifs <;> rfl
  | clearRouteCache => exact (List.append_nil _).symm
  | incrementCounter | recordHistogram => rfl

lemma queue_counterMuts (request seq : ℕ) (cs : List (TagMemory × StringCall)) :
    (queue m request seq w cs).counterMuts = w.counterMuts ++ metrics request seq cs := by
  induction cs generalizing w seq with
  | nil => rw [queue, metrics, List.append_nil]
  | cons c cs ih => rw [queue, ih, userCall_counterMuts, metrics, List.append_assoc]

/-- In the end the metrics have the bytes that they were queued with, exactly when no tags have been given
others. -/
lemma metrics_read_iff (request seq : ℕ) (after : TagMemory) (cs : List (TagMemory × StringCall)) :
    (metrics request seq cs).map (·.map (CounterStrings.read after m)) = metricBytes m request seq cs ↔
      ∀ c ∈ cs, c.2.TagsKept m c.1 after := by
  have hone (c : TagMemory × StringCall) (id : CallId) :
      (c.2.metric id).map (·.map (CounterStrings.read after m)) =
        (c.2.metric id).map (·.map (CounterStrings.read c.1 m)) ↔ c.2.TagsKept m c.1 after := by
    obtain ⟨before, c⟩ := c
    cases c <;> simp [StringCall.metric, StringCall.TagsKept, Queued.map, CounterStrings.read]
  induction cs generalizing seq with
  | nil => simp [metrics, metricBytes]
  | cons c cs ih =>
      rw [metrics, metricBytes, List.map_append, List.forall_mem_cons]
      refine Iff.trans ⟨fun h => List.append_inj h (by simp), fun ⟨hhead, htail⟩ => by rw [hhead, htail]⟩
        (and_congr (hone c ⟨request, seq⟩) (ih (seq + 1)))

/-! ## What is applied -/

lemma setHeaders_const (m : HostMemory) (n : ℕ) (hs : List (Queued HeaderStrings)) :
    setHeaders (fun _ => m) n hs = hs.map fun h => .headerSet (h.map (HeaderStrings.read m)) := by
  induction hs generalizing n with
  | nil => rfl
  | cons h hs ih => rw [setHeaders, ih, List.map_cons]

end StringWriter

namespace HostString

variable {s : HostString} {m : HostMemory}

lemma read_of_not_host (hs : s.isHost = false) (m m' : HostMemory) : s.read m = s.read m' := by
  cases s with
  | owned bytes => rfl
  | host addr len =>
      obtain rfl : len = 0 := by simpa [isHost] using hs
      rfl

/-- Memory that has been given to something else: every byte is another. -/
def changed (m : HostMemory) : HostMemory := fun addr => m addr + 1

lemma not_host_of_read_changed (h : s.read (changed m) = s.read m) : s.isHost = false := by
  cases s with
  | owned bytes => rfl
  | host addr len =>
      cases len with
      | zero => rfl
      | succ n =>
          have hhead := congrArg List.head? h
          simp [read, changed, List.range_succ_eq_map] at hhead

end HostString

/-! ## What lasts -/

lemma HeaderStrings.read_eq_iff (m m' : HostMemory) (h : HeaderStrings) :
    h.read m = h.read m' ↔ ∀ s ∈ h.strings, s.read m = s.read m' := by
  simp [HeaderStrings.read, HeaderStrings.strings]

lemma MetaStrings.read_eq_iff (m m' : HostMemory) (x : MetaStrings) :
    x.read m = x.read m' ↔ ∀ s ∈ x.strings, s.read m = s.read m' := by
  obtain ⟨ns, key, value⟩ := x
  cases value <;>
    simp [MetaStrings.read, MetaStrings.strings, MetadataString.read, MetadataString.strings]

lemma CounterStrings.read_eq_iff (a : TagMemory) (m m' : HostMemory) (x : CounterStrings) :
    x.read a m = x.read a m' ↔ ∀ s ∈ x.strings a, s.read m = s.read m' := by
  simp [CounterStrings.read, CounterStrings.strings]

section

variable {α β : Type} {read : HostMemory → α → β} {strings : α → List HostString}
  (hread : ∀ m m' a, read m a = read m' a ↔ ∀ s ∈ strings a, s.read m = s.read m')
  {q : List (Queued α)} {m : HostMemory}

include hread

lemma map_read_of_not_host (hq : ∀ x ∈ q, ∀ s ∈ strings x.val, s.isHost = false)
    (m m' : HostMemory) : q.map (·.map (read m)) = q.map (·.map (read m')) := by
  refine List.map_congr_left fun x hx => ?_
  have hval : read m x.val = read m' x.val :=
    (hread m m' x.val).mpr fun s hs => HostString.read_of_not_host (hq x hx s hs) m m'
  rw [Queued.map, Queued.map, hval]

lemma not_host_of_map_read
    (h : q.map (·.map (read (HostString.changed m))) = q.map (·.map (read m))) :
    ∀ x ∈ q, ∀ s ∈ strings x.val, s.isHost = false := by
  intro x hx s hs
  have hval : read (HostString.changed m) x.val = read m x.val :=
    congrArg Queued.val (List.map_inj_left.mp h x hx)
  exact HostString.not_host_of_read_changed ((hread _ _ _).mp hval s hs)

end

namespace StringWriter

variable {w : StringWriter} {m : HostMemory} {mem : ℕ → HostMemory} {after : TagMemory}
  {counters : List (Queued CounterMut)} {base : Writer}

@[simp] lemma length_setHeaders (mem : ℕ → HostMemory) (n : ℕ) (hs : List (Queued HeaderStrings)) :
    (setHeaders mem n hs).length = hs.length := by
  induction hs generalizing n with
  | nil => rfl
  | cons h hs ih => rw [setHeaders, List.length_cons, ih, List.length_cons]

lemma setHeaders_of_not_host {hs : List (Queued HeaderStrings)}
    (hhs : ∀ h ∈ hs, ∀ s ∈ h.val.strings, s.isHost = false) (mem : ℕ → HostMemory) (m : HostMemory)
    (n : ℕ) : setHeaders mem n hs = setHeaders (fun _ => m) n hs := by
  induction hs generalizing n with
  | nil => rfl
  | cons h hs ih =>
      obtain ⟨hhead, htail⟩ := List.forall_mem_cons.mp hhs
      have hval : h.val.read (mem n) = h.val.read m :=
        (HeaderStrings.read_eq_iff _ _ _).mpr fun s hs => HostString.read_of_not_host (hhead s hs) _ _
      rw [setHeaders, setHeaders, ih htail, Queued.map, Queued.map, hval]

/-- The memory of before the first header, and another after it. -/
def changedOnce (m : HostMemory) (n : ℕ) : HostMemory := if n = 0 then m else HostString.changed m

lemma setHeaders_changedOnce (n : ℕ) (hs : List (Queued HeaderStrings)) :
    setHeaders (changedOnce m) (n + 1) hs = setHeaders (fun _ => HostString.changed m) (n + 1) hs := by
  induction hs generalizing n with
  | nil => rfl
  | cons h hs ih => rw [setHeaders, setHeaders, ih]; rfl

/-- The strings are applied as the bytes are if the headers, the metadata and the metrics are, each read when
its turn comes. -/
lemma flush_eq_iff (hr : w.responded = false) (hlocal : base.localResp = none) (continueReq : Bool) :
    w.flush mem after continueReq = (w.read m counters base).flush continueReq ↔
      setHeaders mem 0 w.reqMuts = setHeaders (fun _ => m) 0 w.reqMuts ∧
        w.metaMuts.map (·.map (MetaStrings.read (mem w.reqMuts.length))) =
          w.metaMuts.map (·.map (MetaStrings.read m)) ∧
        w.counterMuts.map (·.map (CounterStrings.read after (mem w.reqMuts.length))) = counters := by
  have hmeta (m : HostMemory) :
      w.metaMuts.map (fun x => HandleCall.setMetadata (x.map (MetaStrings.read m))) =
        (w.metaMuts.map (·.map (MetaStrings.read m))).map .setMetadata := by
    rw [List.map_map, Function.comp_def]
  have hcounter (m : HostMemory) :
      w.counterMuts.map (fun x => Writer.counterCall (x.map (CounterStrings.read after m))) =
        (w.counterMuts.map (·.map (CounterStrings.read after m))).map Writer.counterCall := by
    rw [List.map_map, Function.comp_def]
  have hheader : setHeaders (fun _ => m) 0 w.reqMuts =
      (w.reqMuts.map (·.map (HeaderStrings.read m))).map .headerSet := by
    rw [setHeaders_const, List.map_map, Function.comp_def]
  simp only [flush, Writer.flush, read, hr, hlocal, Bool.false_eq_true, if_false, hmeta, hcounter, ← hheader,
    List.append_left_inj]
  constructor
  · intro h
    obtain ⟨h, hcounters⟩ := List.append_inj h (by simp)
    obtain ⟨hheaders, hmetas⟩ := List.append_inj (List.append_cancel_right h) (by simp)
    have hmeta : Function.Injective HandleCall.setMetadata := fun _ _ => HandleCall.setMetadata.inj
    have hcounter : Function.Injective Writer.counterCall := fun _ _ => Writer.counterCall_injective
    exact ⟨hheaders, hmeta.list_map hmetas, hcounter.list_map hcounters⟩
  · rintro ⟨hheaders, hmetas, hcounters⟩
    rw [hheaders, hmetas, hcounters]

/-- What lasts is applied as it was queued. -/
lemma Lasting.flush_eq {request seq : ℕ} {cs : List (TagMemory × StringCall)}
    (h : (queue m request seq {} cs).Lasting m after cs) (hmem : mem 0 = m) (hlocal : base.localResp = none)
    (continueReq : Bool) :
    (queue m request seq {} cs).flush mem after continueReq =
      ((queue m request seq {} cs).read m (metricBytes m request seq cs) base).flush continueReq := by
  have hqueued : (queue m request seq {} cs).counterMuts = metrics request seq cs := queue_counterMuts ..
  generalize queue m request seq {} cs = w at h hqueued ⊢
  cases hr : w.responded with
  | true => rw [flush, if_pos hr, Writer.flush, read, hlocal, hr]; rfl
  | false =>
      obtain ⟨htail, hrest, hkept⟩ := h.resolve_left (by simp [hr])
      have htags : w.counterMuts.map (·.map (CounterStrings.read after m)) =
          metricBytes m request seq cs := by
        rw [hqueued]
        exact (metrics_read_iff request seq after cs).mpr hkept
      refine (flush_eq_iff hr hlocal continueReq).mpr ⟨?_, ?_⟩
      · cases hreq : w.reqMuts with
        | nil => rfl
        | cons h hs =>
            rw [hreq, List.tail_cons] at htail
            rw [setHeaders, setHeaders, hmem, setHeaders_of_not_host htail mem m]
      · rcases hrest with hnil | ⟨hmeta, hcounter⟩
        · rw [hnil, List.length_nil, hmem]
          exact ⟨rfl, htags⟩
        · exact ⟨map_read_of_not_host MetaStrings.read_eq_iff hmeta _ _,
            (map_read_of_not_host (CounterStrings.read_eq_iff after) hcounter _ _).trans htags⟩

/-- What is applied as it was queued, though the memory may change with the first header, lasts. -/
lemma lasting_of_flush_eq {request seq : ℕ} {cs : List (TagMemory × StringCall)} {continueReq : Bool}
    (hlocal : base.localResp = none)
    (h : ∀ mem : ℕ → HostMemory, mem 0 = m → (queue m request seq {} cs).flush mem after continueReq =
      ((queue m request seq {} cs).read m (metricBytes m request seq cs) base).flush continueReq) :
    (queue m request seq {} cs).Lasting m after cs := by
  have hqueued : (queue m request seq {} cs).counterMuts = metrics request seq cs := queue_counterMuts ..
  generalize queue m request seq {} cs = w at h hqueued ⊢
  cases hr : w.responded with
  | true => exact .inl hr
  | false =>
      -- one memory that stays, for the slices, and one that changes, for the strings
      obtain ⟨-, -, htags⟩ := (flush_eq_iff hr hlocal continueReq).mp (h (fun _ => m) rfl)
      obtain ⟨hheaders, hmetas, hcounters⟩ :=
        (flush_eq_iff hr hlocal continueReq).mp (h (changedOnce m) rfl)
      refine .inr ⟨?_, ?_, (metrics_read_iff request seq after cs).mp (hqueued ▸ htags)⟩
      · cases hreq : w.reqMuts with
        | nil => simp
        | cons h hs =>
            rw [hreq, setHeaders, setHeaders, setHeaders_changedOnce, setHeaders_const,
              setHeaders_const] at hheaders
            have htail : hs.map (·.map (HeaderStrings.read (HostString.changed m))) =
                hs.map (·.map (HeaderStrings.read m)) := by
              have hinjective : Function.Injective HandleCall.headerSet := fun _ _ =>
                HandleCall.headerSet.inj
              refine hinjective.list_map ?_
              simpa [Function.comp_def] using (List.cons.inj hheaders).2
            exact not_host_of_map_read HeaderStrings.read_eq_iff htail
      · cases hreq : w.reqMuts with
        | nil => exact .inl rfl
        | cons h hs =>
            have hafter : changedOnce m w.reqMuts.length = HostString.changed m := by
              simp [changedOnce, hreq]
            rw [hafter] at hmetas hcounters
            exact .inr ⟨not_host_of_map_read MetaStrings.read_eq_iff hmetas,
              not_host_of_map_read (CounterStrings.read_eq_iff after) (hcounters.trans htags.symm)⟩

lemma flush_calls_iff (g : Ledger) (who : Actor) (m : HostMemory) (after : TagMemory)
    (cs : List (TagMemory × StringCall)) (continueReq : Bool) :
    (∀ mem : ℕ → HostMemory, mem 0 = m →
        (queue m g.request g.seq {} cs).flush mem after continueReq =
          (cs.foldl (fun g c => g.userCall who (c.2.read c.1 m)) g.acquireWriter).writer.flush continueReq) ↔
      (queue m g.request g.seq {} cs).Lasting m after cs := by
  have hqueue : (cs.foldl (fun g c => g.userCall who (c.2.read c.1 m)) g.acquireWriter).writer =
      (queue m g.request g.seq {} cs).read m (metricBytes m g.request g.seq cs) g.acquireWriter.writer := by
    have hw : g.acquireWriter.writer = ({} : StringWriter).read m [] g.acquireWriter.writer := rfl
    rw [queue_read who rfl cs hw]
    rfl
  rw [hqueue]
  exact ⟨lasting_of_flush_eq rfl, fun h mem hmem => h.flush_eq hmem rfl continueReq⟩

/-- **`flush` applies what was queued, whatever the host does with its memory after the first header,
exactly when nothing that it reads then shows host memory and no tags have been given other bytes.**  `g` is
any request, `m` the memory during its handler `p`, and `h` its `Header`. -/
theorem flush_queued_iff (g : Ledger) (who : Actor) (m : HostMemory) (addr : GoString → ℕ) (h : Header)
    (p : StringHandler) (continueReq : Bool) :
    (∀ mem : ℕ → HostMemory, mem 0 = m →
        (queue m g.request g.seq {} (p.calls addr h [])).flush mem (p.tagsAfter addr h []) continueReq =
          ((p.calls addr h []).foldl (fun g c => g.userCall who (c.2.read c.1 m))
            g.acquireWriter).writer.flush continueReq) ↔
      (queue m g.request g.seq {} (p.calls addr h [])).Lasting m (p.tagsAfter addr h [])
        (p.calls addr h []) :=
  flush_calls_iff g who m (p.tagsAfter addr h []) (p.calls addr h []) continueReq

/-- A handler that keeps a header in the metadata, and sets another to it. -/
def keepKey : StringHandler :=
  .peek (ascii "x-api-key") fun found =>
    match found with
    | none => .ret
    | some (s, _) =>
      .call (.setMetadata ⟨.owned (ascii "auth"), .owned (ascii "key"), .string s⟩)
        (.call (.setRequestHeader ⟨.owned (ascii "x-user-id"), s⟩) .ret)

/-- With `keepKey`, setting the header gives the memory away, and the metadata is what is there then. -/
theorem keepKey_changes :
    ∃ (h : Header) (m : HostMemory) (mem : ℕ → HostMemory), mem 0 = m ∧
      h.peek (ascii "x-api-key") = some [107] ∧ (HostString.host 64 1).read m = [107] ∧
        (queue m 0 0 {} (keepKey.calls (fun _ => 64) h [])).flush mem
            (keepKey.tagsAfter (fun _ => 64) h []) false ≠
          ((keepKey.calls (fun _ => 64) h []).foldl
            (fun g c => g.userCall (.worker .onRequestHeaders) (c.2.read c.1 m))
            ({ request := 0 } : Ledger).acquireWriter).writer.flush false := by
  refine ⟨{ hm := some ⟨fun _ => some ⟨some [107]⟩⟩ }, fun _ => 107,
    fun n _ => if n = 0 then 107 else 0, rfl, rfl, rfl, ?_⟩
  decide

/-- A handler that counts a request by its method, and writes to the slice that it has handed over. -/
def countTwice : StringHandler :=
  .make [.owned (ascii "GET")] fun tags =>
    .call (.incrementCounter 1 1 ⟨tags, 0, 1⟩)
      (.write tags 0 (.owned (ascii "POST")) (.call (.incrementCounter 1 1 ⟨tags, 0, 1⟩) .ret))

/-- Both are counted as the second, though no string of theirs shows host memory. -/
example : (queue (fun _ => 0) 0 0 {} (countTwice.calls (fun _ => 0) {} [])).flush (fun _ _ => 0)
      (countTwice.tagsAfter (fun _ => 0) {} []) false =
    [.incrementCounterValue ⟨⟨1, 1, [ascii "POST"], false⟩, ⟨0, 0⟩⟩,
      .incrementCounterValue ⟨⟨1, 1, [ascii "POST"], false⟩, ⟨0, 1⟩⟩] := by decide

end StringWriter

end Luwes.Sahl
