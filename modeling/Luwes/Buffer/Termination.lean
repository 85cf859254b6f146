import Luwes.Buffer.HeadTail
import Luwes.Lib.Loop

/-!
# Writes that end (`buffer/buffer.go`)

The loop of `Ring.Write` copies as much as there is room for behind `pos`, and starts over at the front
once the end is reached.  With any room at all in the storage it consumes a byte in each iteration,
because `pos` is never left at the end.

`NewRing` does not look at the size, though, and a ring of size 0 has no room: an iteration copies
nothing, sets `pos` back to the 0 it has been at and leaves all bytes for the next one.  So a write
ends exactly when the ring has some room or there is nothing to write (`ring_write_ends_iff`), and
a `HeadTail`, whose `Write` always goes on to the ring, inherits this (`headTail_write_ends_iff`).
-/

namespace Luwes

namespace Ring

/-- The loop of `Write` goes on as long as there are bytes left. -/
abbrev Unwritten (s : Ring × Bytes) : Prop := s.2 ≠ []

/-- One iteration of the loop. -/
abbrev writeBody (s : Ring × Bytes) : Ring × Bytes := s.1.writeStep s.2

/-- The loop of `Write` with a bound on its iterations is the loop, cut short. -/
lemma writeLoop_eq_some_iff {fuel : ℕ} {rb rb' : Ring} {p : Bytes} :
    writeLoop fuel rb p = some rb' ↔ Loop.after Unwritten writeBody fuel (rb, p) = (rb', []) := by
  induction fuel generalizing rb p with
  | zero => cases p <;> simp [writeLoop, Loop.after]
  | succ fuel ih =>
      cases p with
      | nil => simp [writeLoop, Loop.after]
      | cons b p => simp [writeLoop, Loop.after, writeBody, ih]

/-- `Write` of `p` ends, and its loop consumes at least one byte in every iteration. -/
def WriteEnds (rb : Ring) (p : Bytes) : Prop :=
  (∃ fuel rb', writeLoop fuel rb p = some rb') ∧
    Loop.Decreases Unwritten writeBody (fun s => s.2.length) (rb, p)

/-- `WriteChunks` ends: every one of its `Write` calls does. -/
def ChunksEnd : Ring → List UnsafeEnvoyBuffer → Prop
  | _, [] => True
  | rb, c :: cs =>
    let p := c.toUnsafeBytes.getD []
    rb.WriteEnds p ∧ ∀ fuel rb', writeLoop fuel rb p = some rb' → rb'.ChunksEnd cs

lemma exists_writeLoop_iff {rb : Ring} {p : Bytes} :
    (∃ fuel rb', writeLoop fuel rb p = some rb') ↔ Loop.Ends Unwritten writeBody (rb, p) := by
  simp only [writeLoop_eq_some_iff, Loop.Ends, not_not]
  constructor
  · rintro ⟨fuel, rb', h⟩
    exact ⟨fuel, by rw [h]⟩
  · rintro ⟨fuel, h⟩
    exact ⟨fuel, _, Prod.ext rfl h⟩

/-- Storage and `pos` as `NewRing` and the operations leave them, whatever the size. -/
structure Made (n : ℕ) (rb : Ring) : Prop where
  length : rb.data.length = n
  size : rb.size = n
  pos : rb.pos < n ∨ rb.pos = 0

lemma made_new (n : ℕ) : (new n).Made n := ⟨List.length_replicate, rfl, .inr rfl⟩

lemma Made.wellFormed {n : ℕ} {rb : Ring} (h : rb.Made n) (hn : 0 < n) : rb.WellFormed where
  length := h.length.trans h.size.symm
  pos := by
    have hpos := h.pos
    have hsize := h.size
    omega

lemma Made.writeStep {n : ℕ} {rb : Ring} (h : rb.Made n) (p : Bytes) :
    (rb.writeStep p).1.Made n := by
  have hlen := h.length
  have hsize := h.size
  have hpos := h.pos
  have hdata : (rb.copyIn p).1.length = n := by
    simp only [Ring.copyIn, List.length_append, List.length_take, List.length_drop]
    omega
  unfold Ring.writeStep
  by_cases hwrap : rb.pos + (rb.copyIn p).2 ≥ rb.size
  · rw [if_pos hwrap]
    exact ⟨hdata, hsize, .inr rfl⟩
  · rw [if_neg hwrap]
    exact ⟨hdata, hsize, .inl (by show rb.pos + (rb.copyIn p).2 < n; omega)⟩

lemma Made.writeLoop {n fuel : ℕ} {rb rb' : Ring} {p : Bytes} (h : rb.Made n)
    (hrun : Ring.writeLoop fuel rb p = some rb') : rb'.Made n := by
  have hinv : (Loop.after Unwritten writeBody fuel (rb, p)).1.Made n :=
    Loop.after_invariant (I := fun s : Ring × Bytes => s.1.Made n)
      (fun s hs _ => hs.writeStep s.2) h fuel
  rwa [writeLoop_eq_some_iff.mp hrun] at hinv

lemma Made.write {n : ℕ} {rb rb' : Ring} {p : Bytes} (h : rb.Made n)
    (hrun : rb.write p = some rb') : rb'.Made n :=
  h.writeLoop hrun

lemma Made.writeChunks {n : ℕ} {rb rb' : Ring} {cs : List UnsafeEnvoyBuffer} (h : rb.Made n)
    (hrun : rb.writeChunks cs = some rb') : rb'.Made n := by
  induction cs generalizing rb with
  | nil =>
      obtain rfl := Option.some.inj hrun
      exact h
  | cons c cs ih =>
      obtain ⟨rb₁, hwrite, hrest⟩ := Option.bind_eq_some_iff.mp hrun
      exact ih (h.write hwrite) hrest

lemma length_reverseRange (data : List UInt8) {lo hi : ℕ} (hlo : lo ≤ hi) :
    (reverseRange data lo hi).length = data.length := by
  simp only [reverseRange, List.length_append, List.length_reverse, List.length_take,
    List.length_drop]
  omega

lemma Made.bytes {n : ℕ} {rb : Ring} (h : rb.Made n) : rb.bytes.2.Made n := by
  have hpos := h.pos
  have hsize := h.size
  unfold Ring.bytes
  cases rb.full with
  | false => exact h
  | true =>
      refine ⟨?_, hsize, .inr rfl⟩
      show (reverseRange (reverseRange (reverseRange _ 0 rb.pos) rb.pos rb.size) 0 rb.size).length = n
      rw [length_reverseRange _ (Nat.zero_le _), length_reverseRange _ (by omega),
        length_reverseRange _ (Nat.zero_le _), h.length]

lemma Made.reset {n : ℕ} {rb : Ring} (h : rb.Made n) : rb.reset.Made n :=
  ⟨h.length, h.size, .inr rfl⟩

/-- An iteration on a ring without room leaves everything to the next one. -/
lemma Made.writeStep_zero {rb : Ring} (h : rb.Made 0) (p : Bytes) : (rb.writeStep p).2 = p := by
  have hdata : rb.data = [] := List.length_eq_zero_iff.mp h.length
  have hcopy : (rb.copyIn p).2 = 0 := by simp [Ring.copyIn, hdata]
  simp only [Ring.writeStep, hcopy]
  split <;> rfl

/-- Without room the loop never ends: it is back where it was, with the same bytes to write. -/
theorem Made.never_ends {rb : Ring} (h : rb.Made 0) {p : Bytes} (hp : p ≠ []) :
    ¬ ∃ fuel rb', Ring.writeLoop fuel rb p = some rb' := by
  rw [exists_writeLoop_iff]
  refine Loop.not_ends_of_invariant (I := fun s : Ring × Bytes => s.1.Made 0 ∧ s.2 = p) ?_ ?_
    ⟨h, rfl⟩
  · rintro s ⟨-, rfl⟩
    exact hp
  · rintro s ⟨hmade, hs⟩
    exact ⟨hmade.writeStep s.2, (hmade.writeStep_zero s.2).trans hs⟩

/-- **`Write` ends** exactly when the ring has room or there is nothing to write. -/
theorem Made.writeEnds_iff {n : ℕ} {rb : Ring} (h : rb.Made n) (p : Bytes) :
    rb.WriteEnds p ↔ 0 < n ∨ p = [] := by
  constructor
  · rintro ⟨hends, -⟩
    by_contra hcond
    obtain ⟨hn, hp⟩ := not_or.mp hcond
    obtain rfl : n = 0 := by omega
    exact h.never_ends hp hends
  · intro hcond
    have hdec : Loop.Decreases Unwritten writeBody (fun s => s.2.length) (rb, p) := by
      rcases hcond with hn | rfl
      · refine Loop.decreases_of_invariant (I := fun s : Ring × Bytes => s.1.WellFormed) ?_
          (h.wellFormed hn)
        intro s hs hp
        obtain ⟨hwf, -, hrest, -⟩ := hs.writeStep s.2
        have hroom := hs.room_pos hp
        have hlen := List.length_pos_iff.mpr hp
        refine ⟨hwf, ?_⟩
        show (s.1.writeStep s.2).2.length < s.2.length
        rw [hrest, List.length_drop]
        omega
      · refine Loop.decreases_of_invariant (I := fun s : Ring × Bytes => s.2 = []) ?_ rfl
        intro s hs hp
        exact absurd hs hp
    exact ⟨exists_writeLoop_iff.mpr (Loop.ends_of_decreases hdec), hdec⟩

theorem Made.chunksEnd_iff {n : ℕ} {rb : Ring} (h : rb.Made n) (cs : List UnsafeEnvoyBuffer) :
    rb.ChunksEnd cs ↔ 0 < n ∨ chunkBytes cs = [] := by
  induction cs generalizing rb with
  | nil => simp [ChunksEnd]
  | cons c cs ih =>
      simp only [ChunksEnd, UnsafeEnvoyBuffer.toUnsafeBytes_getD, h.writeEnds_iff, chunkBytes_cons,
        List.append_eq_nil_iff]
      constructor
      · rintro ⟨hcond, hrest⟩
        obtain ⟨⟨fuel, rb', hrun⟩, -⟩ := (h.writeEnds_iff c.bytes).mpr hcond
        have htail := (ih (h.writeLoop hrun)).mp (hrest fuel rb' hrun)
        by_cases hn : 0 < n
        · exact .inl hn
        · exact .inr ⟨hcond.resolve_left hn, htail.resolve_left hn⟩
      · intro hcond
        refine ⟨hcond.imp_right And.left, fun fuel rb' hrun => ?_⟩
        exact (ih (h.writeLoop hrun)).mpr (hcond.imp_right And.right)

namespace Use

lemma made_step {n : ℕ} {u u' : Use} {op : Op} (hu : u.ring.Made n) (hstep : u.step op = some u') :
    u'.ring.Made n := by
  cases op with
  | write p =>
      obtain ⟨rb, hrun, rfl⟩ := Option.map_eq_some_iff.mp hstep
      exact hu.write hrun
  | writeChunks chunks =>
      obtain ⟨rb, hrun, rfl⟩ := Option.map_eq_some_iff.mp hstep
      exact hu.writeChunks hrun
  | bytes =>
      obtain rfl := Option.some.inj hstep
      exact hu.bytes
  | len =>
      obtain rfl := Option.some.inj hstep
      exact hu
  | reset =>
      obtain rfl := Option.some.inj hstep
      exact hu.reset

end Use

end Ring

namespace HeadTail

/-- `Write` of `p` ends: its write to the ring does. -/
def WriteEnds (ht : HeadTail) (p : Bytes) : Prop := (ht.copyHead p).tail.WriteEnds p

/-- `WriteChunks` ends: every one of its `Write` calls does. -/
def ChunksEnd : HeadTail → List UnsafeEnvoyBuffer → Prop
  | _, [] => True
  | ht, c :: cs =>
    let p := c.toUnsafeBytes.getD []
    ht.WriteEnds p ∧
      ∀ fuel rb, Ring.writeLoop fuel (ht.copyHead p).tail p = some rb →
        ChunksEnd { ht.copyHead p with tail := rb } cs

lemma writeEnds_iff (ht : HeadTail) (p : Bytes) : ht.WriteEnds p ↔ ht.tail.WriteEnds p := by
  simp [WriteEnds]

lemma chunksEnd_iff (ht : HeadTail) (cs : List UnsafeEnvoyBuffer) :
    ht.ChunksEnd cs ↔ ht.tail.ChunksEnd cs := by
  induction cs generalizing ht with
  | nil => exact Iff.rfl
  | cons c cs ih => simp [ChunksEnd, Ring.ChunksEnd, writeEnds_iff, ih]

lemma made_writeChunks {n : ℕ} {ht ht' : HeadTail} {cs : List UnsafeEnvoyBuffer}
    (h : ht.tail.Made n) (hrun : ht.writeChunks cs = some ht') : ht'.tail.Made n := by
  induction cs generalizing ht with
  | nil =>
      obtain rfl := Option.some.inj hrun
      exact h
  | cons c cs ih =>
      obtain ⟨ht₁, hwrite, hrest⟩ := Option.bind_eq_some_iff.mp hrun
      obtain ⟨rb, hrun, rfl⟩ := Option.map_eq_some_iff.mp hwrite
      rw [copyHead_tail] at hrun
      exact ih (Ring.Made.write h hrun) hrest

lemma Use.made_step {n : ℕ} {u u' : Use} {op : Op} (hu : u.ht.tail.Made n)
    (hstep : u.step op = some u') : u'.ht.tail.Made n := by
  cases op with
  | write p =>
      obtain ⟨ht, hwrite, rfl⟩ := Option.map_eq_some_iff.mp hstep
      obtain ⟨rb, hrun, rfl⟩ := Option.map_eq_some_iff.mp hwrite
      rw [copyHead_tail] at hrun
      exact hu.write hrun
  | writeChunks chunks =>
      obtain ⟨ht, hrun, rfl⟩ := Option.map_eq_some_iff.mp hstep
      exact made_writeChunks hu hrun
  | head =>
      obtain rfl := Option.some.inj hstep
      exact hu
  | tail =>
      obtain rfl := Option.some.inj hstep
      exact hu.bytes
  | reset =>
      obtain rfl := Option.some.inj hstep
      exact hu.reset

end HeadTail

/-! ## Every reachable ring and buffer -/

open LabelledRun

/-- **The exact condition.**  In every state that a ring and a `HeadTail` of any size can reach, a write
ends, consuming something in each iteration, exactly when the ring has some room or there is nothing
to write. -/
theorem writes_end_iff (headSize size : ℕ) :
    (∀ (ops : List Ring.Op) (u : Ring.Use), run Ring.Use.step (Ring.Use.new size) ops = some u →
      (∀ p, u.ring.WriteEnds p ↔ 0 < size ∨ p = []) ∧
        ∀ chunks, u.ring.ChunksEnd chunks ↔ 0 < size ∨ chunkBytes chunks = []) ∧
    (∀ (ops : List HeadTail.Op) (u : HeadTail.Use),
      run HeadTail.Use.step (HeadTail.Use.new headSize size) ops = some u →
      (∀ p, u.ht.WriteEnds p ↔ 0 < size ∨ p = []) ∧
        ∀ chunks, u.ht.ChunksEnd chunks ↔ 0 < size ∨ chunkBytes chunks = []) := by
  constructor
  · intro ops u hrun
    have hmade : u.ring.Made size :=
      run_invariant (I := fun u : Ring.Use => u.ring.Made size)
        (fun _ _ _ => Ring.Use.made_step) (Ring.made_new size) hrun
    exact ⟨hmade.writeEnds_iff, hmade.chunksEnd_iff⟩
  · intro ops u hrun
    have hmade : u.ht.tail.Made size :=
      run_invariant (I := fun u : HeadTail.Use => u.ht.tail.Made size)
        (fun _ _ _ => HeadTail.Use.made_step) (Ring.made_new size) hrun
    refine ⟨fun p => ?_, fun chunks => ?_⟩
    · rw [HeadTail.writeEnds_iff]
      exact hmade.writeEnds_iff p
    · rw [HeadTail.chunksEnd_iff]
      exact hmade.chunksEnd_iff chunks

/-- The condition evaluated on a ring of size 2 that has been filled and read. -/
theorem writes_end_iff_readTwice :
    ∃ u, run Ring.Use.step (Ring.Use.new 2) readTwice = some u ∧
      (∀ p, u.ring.WriteEnds p ↔ 0 < 2 ∨ p = []) ∧
        ∀ chunks, u.ring.ChunksEnd chunks ↔ 0 < 2 ∨ chunkBytes chunks = [] :=
  ⟨_, rfl, (writes_end_iff 0 2).1 readTwice _ rfl⟩

/-- A ring of size 0 never takes its first byte, neither alone nor behind a slab. -/
theorem emptyRing_never_ends :
    (¬ ∀ (size : ℕ) (ops : List Ring.Op) (u : Ring.Use),
      run Ring.Use.step (Ring.Use.new size) ops = some u → ∀ p, u.ring.WriteEnds p) ∧
    ¬ ∀ (headSize size : ℕ) (ops : List HeadTail.Op) (u : HeadTail.Use),
      run HeadTail.Use.step (HeadTail.Use.new headSize size) ops = some u → ∀ p, u.ht.WriteEnds p := by
  constructor
  · intro h
    have hends := h 0 [] _ rfl [1]
    exact absurd ((Ring.made_new 0).writeEnds_iff [1] |>.mp hends) (by decide)
  · intro h
    have hends := (HeadTail.writeEnds_iff _ _).mp (h 8 0 [] _ rfl [1])
    exact absurd ((Ring.made_new 0).writeEnds_iff [1] |>.mp hends) (by decide)

end Luwes
