import Luwes.Sahl.Changes

/-!
# What the response observer sees

`OnResponseBody` hands the observer one `Data`, the first chunk of the buffer it is given, and the
host splits a buffer into chunks as it likes.  So the observer sees the whole body in exactly the
runs in which no delivered buffer has bytes outside its first chunk.

The observer is never ahead of the host (`ObserverBehind`): what it has missed cannot be made up for
by a later call, and one buffer with a second chunk spoils every run that goes on from there.
-/

namespace Luwes.Sahl

open LabelledRun

/-! ## The two streams of bytes -/

/-- The `Data` of one body call of the observer. -/
def Obs.observedBytes : Obs → Bytes
  | .observed (.onResponseBody _) chunk _ _ => chunk.data.getD []
  | _ => []

/-- All bytes of one buffer the host delivers. -/
def Obs.deliveredBytes : Obs → Bytes
  | .responseBody body _ => chunkBytes body
  | _ => []

/-- What the observer has been given, in order. -/
def observedBytes (tr : List Obs) : Bytes := tr.flatMap Obs.observedBytes

/-- What the host has delivered, in order. -/
def deliveredBytes (tr : List Obs) : Bytes := tr.flatMap Obs.deliveredBytes

@[simp] lemma observedBytes_append (xs ys : List Obs) :
    observedBytes (xs ++ ys) = observedBytes xs ++ observedBytes ys := by
  simp [observedBytes]

@[simp] lemma deliveredBytes_append (xs ys : List Obs) :
    deliveredBytes (xs ++ ys) = deliveredBytes xs ++ deliveredBytes ys := by
  simp [deliveredBytes]

lemma bodyData_getD (body : List UnsafeEnvoyBuffer) :
    (bodyData body).getD [] = chunkBytes (body.take 1) := by
  cases body with
  | nil => rfl
  | cons c cs => simp [bodyData]

lemma chunkBytes_take_drop (body : List UnsafeEnvoyBuffer) :
    chunkBytes body = chunkBytes (body.take 1) ++ chunkBytes (body.drop 1) := by
  rw [← chunkBytes_append, List.take_append_drop]

/-- A buffer the step delivers has no bytes outside its first chunk. -/
def State.Label.firstChunkOnly : State.Label → Prop
  | .responseBody body _ => chunkBytes (body.drop 1) = []
  | _ => True

instance : DecidablePred State.Label.firstChunkOnly := fun l => by
  cases l <;> unfold State.Label.firstChunkOnly <;> infer_instance

/-! ## One step -/

namespace State

/-- The filter has an observer, and the host has delivered at least as much as was observed. -/
structure ObserverBehind (s : State) : Prop where
  observer : s.filterDef.responseFn.isSome = true
  behind : (observedBytes s.trace).length ≤ (deliveredBytes s.trace).length

/-- A buffer adds its first chunk to what is observed and all its bytes to what is delivered. -/
lemma responseBody_bytes {s s' : State} {body : List UnsafeEnvoyBuffer} {endStream : Bool}
    (hI : s.ObserverBehind) (h : Moves s (.responseBody body endStream) s') :
    observedBytes s'.trace = observedBytes s.trace ++ chunkBytes (body.take 1) ∧
      deliveredBytes s'.trace = deliveredBytes s.trace ++ chunkBytes body := by
  cases h with
  | responseBodyPassed _ _ _ _ hfn =>
      have := hI.observer
      simp [hfn] at this
  | responseBodyObserved =>
      rw [← bodyData_getD]
      simp [Ledger.emit, observedBytes, deliveredBytes, Obs.observedBytes, Obs.deliveredBytes,
        ResponseState.onResponseBody]

lemma other_bytes {s s' : State} {l : Label} (h : Moves s l s')
    (hl : ∀ body endStream, l ≠ .responseBody body endStream) :
    observedBytes s'.trace = observedBytes s.trace ∧
      deliveredBytes s'.trace = deliveredBytes s.trace := by
  obtain ⟨obs, htr, hobs⟩ := h.emits
  have hobserved : observedBytes obs = [] := by
    rw [observedBytes, List.flatMap_eq_nil_iff]
    intro o ho
    have hemits := hobs o ho
    cases o with
    | observed cb chunk ctx hasWriter =>
        rcases hemits with ⟨_, -, rfl⟩ | ⟨endStream, ⟨body, hbody⟩, -⟩
        · rfl
        · exact absurd hbody (hl body endStream)
    | _ => rfl
  have hdelivered : deliveredBytes obs = [] := by
    rw [deliveredBytes, List.flatMap_eq_nil_iff]
    intro o ho
    have hemits := hobs o ho
    cases o with
    | responseBody body endStream => exact absurd hemits (hl body endStream)
    | _ => rfl
  simp [htr, hobserved, hdelivered]

lemma observerBehind_step {s s' : State} {l : Label} (hI : s.ObserverBehind)
    (h : s.step l = some s') : s'.ObserverBehind := by
  have hm := step_moves h
  refine ⟨by rw [hm.filterDef_eq]; exact hI.observer, ?_⟩
  have hbehind := hI.behind
  by_cases hl : ∃ body endStream, l = .responseBody body endStream
  · obtain ⟨body, endStream, rfl⟩ := hl
    obtain ⟨hobserved, hdelivered⟩ := responseBody_bytes hI hm
    rw [hobserved, hdelivered, chunkBytes_take_drop body]
    simp only [List.length_append]
    omega
  · obtain ⟨hobserved, hdelivered⟩ := other_bytes hm (by simpa using hl)
    rwa [hobserved, hdelivered]

/-- A step keeps the two streams equal exactly when it delivers nothing outside a first chunk. -/
lemma observed_step {s s' : State} {l : Label} (hI : s.ObserverBehind) (h : s.step l = some s') :
    observedBytes s'.trace = deliveredBytes s'.trace ↔
      observedBytes s.trace = deliveredBytes s.trace ∧ l.firstChunkOnly := by
  have hm := step_moves h
  by_cases hl : ∃ body endStream, l = .responseBody body endStream
  · obtain ⟨body, endStream, rfl⟩ := hl
    obtain ⟨hobserved, hdelivered⟩ := responseBody_bytes hI hm
    rw [hobserved, hdelivered, chunkBytes_take_drop body]
    constructor
    · intro heq
      -- The bytes after the first chunk would have to be made up for by what was seen before.
      have hlen := congrArg List.length heq
      have hbehind := hI.behind
      simp only [List.length_append] at hlen
      have hrest : chunkBytes (body.drop 1) = [] := List.length_eq_zero_iff.mp (by omega)
      rw [hrest, List.append_nil] at heq
      exact ⟨List.append_cancel_right heq, hrest⟩
    · rintro ⟨heq, hrest⟩
      have hrest' : chunkBytes (body.drop 1) = [] := hrest
      rw [heq, hrest', List.append_nil]
  · obtain ⟨hobserved, hdelivered⟩ := other_bytes hm (by simpa using hl)
    have hother : l.firstChunkOnly := by
      cases l with
      | responseBody body endStream => exact absurd ⟨body, endStream, rfl⟩ hl
      | _ => trivial
    rw [hobserved, hdelivered]
    exact (and_iff_left hother).symm

end State

/-! ## Whole runs -/

/-- **The exact condition.**  The observer sees the whole body in exactly the runs in which every
delivered buffer has all its bytes in its first chunk. -/
theorem observedBytes_eq_iff (r : ℕ) (d : FilterDef) (hd : d.responseFn.isSome = true)
    (ls : List State.Label) (s : State) (hrun : run State.step (State.new r d) ls = some s) :
    observedBytes s.trace = deliveredBytes s.trace ↔
      Along State.step (fun _ l => l.firstChunkOnly) (State.new r d) ls := by
  have hnew : (State.new r d).ObserverBehind := ⟨hd, Nat.le_refl _⟩
  have h := run_iff_along (P := fun s : State => observedBytes s.trace = deliveredBytes s.trace)
    (fun _ _ _ => State.observerBehind_step) (fun _ _ _ => State.observed_step) hnew hrun
  simpa [State.new, observedBytes, deliveredBytes] using h

/-- A filter whose observer only looks. -/
def tapFilter : FilterDef := { handler := .ret, responseFn := some fun _ => .ret }

/-- A response whose body comes in one buffer. -/
def responseInOneBuffer (body : List UnsafeEnvoyBuffer) : List State.Label :=
  [.requestHeaders true, .worker {}, .responseHeaders ⟨fun _ => none⟩, .worker {},
    .responseBody body true, .worker {}]

/-- Of a buffer of two chunks the observer is given the first. -/
theorem twoChunks_not_observed :
    ¬ ∀ (r : ℕ) (d : FilterDef) (ls : List State.Label) (s : State),
      d.responseFn.isSome = true → d.mutableResponse = false →
      run State.step (State.new r d) ls = some s →
      observedBytes s.trace = deliveredBytes s.trace := by
  intro h
  have heq := h 0 tapFilter (responseInOneBuffer [⟨some (ascii "to")⟩, ⟨some (ascii "ken")⟩]) _
    rfl rfl rfl
  exact absurd heq (by decide)

/-- The condition evaluated on a response of one chunk. -/
theorem observedBytes_eq_iff_oneChunk :
    ∃ s, run State.step (State.new 0 tapFilter)
        (responseInOneBuffer [⟨some (ascii "token")⟩]) = some s ∧
      (observedBytes s.trace = deliveredBytes s.trace ↔
        Along State.step (fun _ l => l.firstChunkOnly) (State.new 0 tapFilter)
          (responseInOneBuffer [⟨some (ascii "token")⟩])) :=
  ⟨_, rfl, observedBytes_eq_iff 0 tapFilter rfl _ _ rfl⟩

end Luwes.Sahl
