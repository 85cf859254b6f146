import Luwes.Sahl.HostStrings

/-!
# What a handler with host strings passes to the host

The runs of a filter are runs of a Writer that holds bytes.  A handler whose strings show host memory is such
a Writer's handler all the same, if each of its calls has the bytes that are passed in the end: those of a
header when it is set, those of metadata and tags after all headers are.  The host's memory may be anything
then, and so may the bytes (`flush_passed`).
-/

namespace Luwes.Sahl

/-- The call sets a request header. -/
def StringCall.isHeader : StringCall → Bool
  | .setRequestHeader _ => true
  | _ => false

/-- The call with the bytes that its strings have when they are passed to the host, for a handler that sets
`total` headers, `n` of them before. -/
def StringCall.readPassed (mem : ℕ → HostMemory) (after : TagMemory) (total n : ℕ) (c : StringCall) :
    UserCall :=
  c.read after
    (match c with
    | .setRequestHeader _ => mem n
    | .setMetadata _ | .incrementCounter _ _ _ | .recordHistogram _ _ _ => mem total
    | .send _ _ | .setResponseHeader _ | .clearRouteCache => mem 0)

/-- The calls with the bytes that are passed. -/
def passedCalls (mem : ℕ → HostMemory) (after : TagMemory) (total : ℕ) :
    ℕ → List (TagMemory × StringCall) → List UserCall
  | _, [] => []
  | n, c :: cs =>
    c.2.readPassed mem after total n ::
      passedCalls mem after total (n + if c.2.isHeader then 1 else 0) cs

/-- A handler's calls with the bytes that are passed: of the headers when it is their turn, of what is applied
after them in the memory there is then. -/
def StringHandler.passed (addr : GoString → ℕ) (mem : ℕ → HostMemory) (h : Header) (p : StringHandler) :
    List UserCall :=
  let cs := p.calls addr h []
  passedCalls mem (p.tagsAfter addr h []) (cs.countP fun c => c.2.isHeader) 0 cs

namespace StringWriter

variable {mem : ℕ → HostMemory} {after : TagMemory}

/-- The headers, each with the bytes it has when its turn comes. -/
def readHeaders (mem : ℕ → HostMemory) : ℕ → List (Queued HeaderStrings) → List (Queued HeaderMut)
  | _, [] => []
  | n, h :: hs => h.map (HeaderStrings.read (mem n)) :: readHeaders mem (n + 1) hs

lemma readHeaders_concat (n : ℕ) (hs : List (Queued HeaderStrings)) (h : Queued HeaderStrings) :
    readHeaders mem n (hs ++ [h]) =
      readHeaders mem n hs ++ [h.map (HeaderStrings.read (mem (n + hs.length)))] := by
  induction hs generalizing n with
  | nil => rfl
  | cons h' hs ih =>
      rw [List.cons_append, readHeaders, ih, readHeaders, List.cons_append, List.length_cons,
        Nat.add_assoc, Nat.add_comm 1]

lemma setHeaders_eq (n : ℕ) (hs : List (Queued HeaderStrings)) :
    setHeaders mem n hs = (readHeaders mem n hs).map .headerSet := by
  induction hs generalizing n with
  | nil => rfl
  | cons h hs ih => rw [setHeaders, ih, readHeaders, List.map_cons]

/-- The `Writer` whose queues hold the bytes that are passed, if `total` headers are set. -/
def readPassed (w : StringWriter) (mem : ℕ → HostMemory) (after : TagMemory) (total : ℕ) (base : Writer) :
    Writer :=
  { base with
    reqMuts := readHeaders mem 0 w.reqMuts
    respHdrMuts := w.respHdrMuts.map (·.map (HeaderStrings.read (mem 0)))
    metaMuts := w.metaMuts.map (·.map (MetaStrings.read (mem total)))
    counterMuts := w.counterMuts.map (·.map (CounterStrings.read after (mem total)))
    responded := w.responded
    routeCleared := w.routeCleared }

variable {w : StringWriter} {m : HostMemory} {base : Writer} {total n : ℕ}

lemma userCall_readPassed (hgo : base.goStarted = false) (hn : w.responded = true ∨ n = w.reqMuts.length)
    (id : CallId) (c : StringCall) :
    (w.readPassed mem after total base).userCall id (c.readPassed mem after total n) =
      ((w.userCall (mem 0) id c).1.readPassed mem after total base, (w.userCall (mem 0) id c).2) := by
  cases c with
  | send statusCode body =>
      cases hr : w.responded with
      | false =>
          simp [userCall, Writer.userCall, Writer.sendBytes, StringCall.readPassed, StringCall.read,
            readPassed, hr, hgo]
      | true =>
          simp [userCall, Writer.userCall, Writer.sendBytes, StringCall.readPassed, StringCall.read,
            readPassed, hr]
  | setResponseHeader h =>
      cases hr : w.responded <;>
        simp [userCall, Writer.userCall, Writer.setResponseHeader, StringCall.readPassed, StringCall.read,
          readPassed, hr, Queued.map, HeaderStrings.read]
  | setRequestHeader h =>
      cases hr : w.responded with
      | false =>
          obtain rfl := hn.resolve_left (by simp [hr])
          simp [userCall, Writer.userCall, Writer.setRequestHeader, StringCall.readPassed, StringCall.read,
            readPassed, readHeaders_concat, hr, Queued.map, HeaderStrings.read]
      | true =>
          simp [userCall, Writer.userCall, Writer.setRequestHeader, StringCall.readPassed, StringCall.read,
            readPassed, hr]
  | setMetadata x =>
      cases hr : w.responded <;>
        simp [userCall, Writer.userCall, Writer.setMetadata, StringCall.readPassed, StringCall.read,
          readPassed, hr, Queued.map, MetaStrings.read]
  | clearRouteCache => rfl
  | incrementCounter metric n tags =>
      simp [userCall, Writer.userCall, Writer.incrementCounter, Writer.queueMetric, StringCall.readPassed,
        StringCall.read, readPassed, Queued.map, CounterStrings.read]
  | recordHistogram metric n tags =>
      simp [userCall, Writer.userCall, Writer.recordHistogram, Writer.queueMetric, StringCall.readPassed,
        StringCall.read, readPassed, Queued.map, CounterStrings.read]

lemma userCall_reqMuts (hn : w.responded = true ∨ n = w.reqMuts.length) (id : CallId) (c : StringCall) :
    (w.userCall m id c).1.responded = true ∨
      n + (if c.isHeader then 1 else 0) = (w.userCall m id c).1.reqMuts.length := by
  cases hr : w.responded with
  | true =>
      refine .inl ?_
      cases c <;> simp [userCall, hr]
  | false =>
      obtain rfl := hn.resolve_left (by simp [hr])
      cases c <;> simp [userCall, hr, StringCall.isHeader]

lemma queue_readPassed (who : Actor) (hgo : base.goStarted = false) (cs : List (TagMemory × StringCall))
    {g : Ledger} (hn : w.responded = true ∨ n = w.reqMuts.length)
    (hw : g.writer = w.readPassed mem after total base) :
    ((passedCalls mem after total n cs).foldl (fun g c => g.userCall who c) g).writer =
        (queue (mem 0) g.request g.seq w cs).readPassed mem after total base ∧
      ((queue (mem 0) g.request g.seq w cs).responded = true ∨
        n + cs.countP (fun c => c.2.isHeader) = (queue (mem 0) g.request g.seq w cs).reqMuts.length) := by
  induction cs generalizing g w n with
  | nil => exact ⟨hw, by simpa [queue] using hn⟩
  | cons c cs ih =>
      have hstep : (g.userCall who (c.2.readPassed mem after total n)).writer =
          (w.userCall (mem 0) ⟨g.request, g.seq⟩ c.2).1.readPassed mem after total base := by
        rw [Ledger.userCall, hw, userCall_readPassed hgo hn]
      have hcount : n + (c :: cs).countP (fun c => c.2.isHeader) =
          n + (if c.2.isHeader then 1 else 0) + cs.countP (fun c => c.2.isHeader) := by
        rw [List.countP_cons]
        omega
      rw [hcount]
      exact ih (userCall_reqMuts hn ⟨g.request, g.seq⟩ c.2) hstep

/-- What is passed to the host when as many headers are queued as are set. -/
lemma flush_readPassed (hlocal : base.localResp = none)
    (htotal : w.responded = true ∨ total = w.reqMuts.length) (continueReq : Bool) :
    w.flush mem after continueReq = (w.readPassed mem after total base).flush continueReq := by
  cases hr : w.responded with
  | true => simp [flush, Writer.flush, readPassed, hr, hlocal]
  | false =>
      obtain rfl := htotal.resolve_left (by simp [hr])
      simp [flush, Writer.flush, readPassed, hr, hlocal, setHeaders_eq, Function.comp_def]

/-- **What `flush` passes**, in whatever memory, is what it would pass of a Writer of bytes whose handler had
made the calls with the bytes that are passed. -/
theorem flush_passed (g : Ledger) (who : Actor) (mem : ℕ → HostMemory) (addr : GoString → ℕ) (h : Header)
    (p : StringHandler) (continueReq : Bool) :
    (queue (mem 0) g.request g.seq {} (p.calls addr h [])).flush mem (p.tagsAfter addr h []) continueReq =
      ((p.passed addr mem h).foldl (fun g c => g.userCall who c) g.acquireWriter).writer.flush
        continueReq := by
  have hw : g.acquireWriter.writer =
      ({} : StringWriter).readPassed mem (p.tagsAfter addr h [])
        ((p.calls addr h []).countP fun c => c.2.isHeader) g.acquireWriter.writer := rfl
  have hnone : ({} : StringWriter).responded = true ∨ 0 = ({} : StringWriter).reqMuts.length := .inr rfl
  obtain ⟨hqueue, hcount⟩ := queue_readPassed who rfl (p.calls addr h []) hnone hw
  rw [Nat.zero_add] at hcount
  rw [StringHandler.passed, hqueue]
  exact flush_readPassed rfl hcount continueReq

end StringWriter

end Luwes.Sahl
