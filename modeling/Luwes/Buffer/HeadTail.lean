import Luwes.Buffer.Ring

/-!
# The head and the tail of a stream (`buffer/buffer.go`)

A `HeadTail` keeps the first `headSize` bytes of a stream in a slab that is filled once, and its last
`tailSize` bytes in a `Ring`.  Between two streams it is `Reset`.

What `Head` and the first `Tail` of a stream return depends on the bytes of the stream alone
(`HeadTail.answers_right`): not on how they were cut into `Write` and `WriteChunks` calls, and not on
what the slab and the ring hold from earlier streams.  Only a `Tail` that has found the ring full
leaves something to be wrong about, which is why the first one is meant: it empties the ring.

As with `Bytes`, the slices that `Head` and `Tail` return are copies here, and the storage itself in the
source: a caller that writes to them is left out.
-/

namespace Luwes

/-- `HeadTail`. -/
structure HeadTail where
  head : List UInt8
  headN : ℕ
  headSize : ℕ
  tail : Ring
  deriving DecidableEq, Repr

namespace HeadTail

/-- `NewHeadTail`. -/
def new (headSize tailSize : ℕ) : HeadTail where
  head := List.replicate headSize 0
  headN := 0
  headSize := headSize
  tail := Ring.new tailSize

/-- The first half of `Write`: `copy(ht.head[ht.headN:], p)` while the slab has room. -/
def copyHead (ht : HeadTail) (p : Bytes) : HeadTail :=
  if ht.headN < ht.headSize then
    let n := min (ht.head.length - ht.headN) p.length
    { ht with
      head := ht.head.take ht.headN ++ p.take n ++ ht.head.drop (ht.headN + n)
      headN := ht.headN + n }
  else ht

/-- `Write`. -/
def write (ht : HeadTail) (p : Bytes) : Option HeadTail :=
  let ht := ht.copyHead p
  (ht.tail.write p).map fun tail => { ht with tail := tail }

/-- `WriteChunks`. -/
def writeChunks (ht : HeadTail) : List UnsafeEnvoyBuffer → Option HeadTail
  | [] => some ht
  | c :: cs => (ht.write (c.toUnsafeBytes.getD [])).bind fun ht => ht.writeChunks cs

/-- `Head`. -/
def readHead (ht : HeadTail) : Bytes := ht.head.take ht.headN

/-- `Tail`: what is returned, and the buffer after it. -/
def readTail (ht : HeadTail) : Bytes × HeadTail :=
  (ht.tail.bytes.1, { ht with tail := ht.tail.bytes.2 })

/-- `Reset`. -/
def reset (ht : HeadTail) : HeadTail := { ht with headN := 0, tail := ht.tail.reset }

/-! ## The slab -/

@[simp] lemma copyHead_tail (ht : HeadTail) (p : Bytes) : (ht.copyHead p).tail = ht.tail := by
  unfold copyHead
  split <;> rfl

/-- The slab has the size it was made with and shows the first bytes of `written`. -/
structure Slab (n : ℕ) (written : Bytes) (ht : HeadTail) : Prop where
  length : ht.head.length = n
  size : ht.headSize = n
  headN : ht.headN = min n written.length
  shows : ht.readHead = written.take n

lemma slab_new (n m : ℕ) : (new n m).Slab n [] where
  length := List.length_replicate
  size := rfl
  headN := by simp [new]
  shows := by simp [readHead, new]

lemma Slab.tail {n : ℕ} {written : Bytes} {ht : HeadTail} (h : ht.Slab n written) (rb : Ring) :
    Slab n written { ht with tail := rb } :=
  ⟨h.length, h.size, h.headN, h.shows⟩

lemma Slab.reset {n : ℕ} {written : Bytes} {ht : HeadTail} (h : ht.Slab n written) :
    ht.reset.Slab n [] where
  length := h.length
  size := h.size
  headN := by simp [HeadTail.reset]
  shows := by simp [readHead, HeadTail.reset]

/-- **The slab takes what it has room for**, wherever the stream is cut. -/
lemma Slab.copyHead {n : ℕ} {written : Bytes} {ht : HeadTail} (h : ht.Slab n written) (p : Bytes) :
    (ht.copyHead p).Slab n (written ++ p) := by
  have hlen := h.length
  have hN := h.headN
  unfold HeadTail.copyHead
  by_cases hroom : ht.headN < ht.headSize
  · -- Everything so far is in the slab, and `p` follows it.
    have hwritten : written.length < n := by
      rw [h.size] at hroom
      omega
    have hwhole : written.take n = written := List.take_of_length_le (Nat.le_of_lt hwritten)
    have hold : ht.headN = written.length := by omega
    have hshows : ht.head.take written.length = written := by
      rw [← hold]
      exact h.shows.trans hwhole
    rw [if_pos hroom]
    simp only [hlen, hold, hshows]
    generalize hk : min (n - written.length) p.length = k
    have hp : (p.take k).length = k := List.length_take_of_le (by omega)
    have hnew : (written ++ p.take k).length = written.length + k := by simp [hp]
    refine ⟨?_, h.size, ?_, ?_⟩
    · simp only [List.length_append, hp, List.length_drop, hlen]
      omega
    · simp only [List.length_append]
      omega
    · show (written ++ p.take k ++ ht.head.drop (written.length + k)).take (written.length + k) =
        (written ++ p).take n
      rw [List.take_left' hnew, List.take_append, hwhole, ← hk, ← List.take_eq_take_min]
  · -- The slab is full, and stays as it is.
    have hfull : n ≤ written.length := by
      rw [h.size] at hroom
      omega
    rw [if_neg hroom]
    refine ⟨hlen, h.size, ?_, ?_⟩
    · simp only [List.length_append]
      omega
    · rw [h.shows, List.take_append_of_le_length hfull]

/-! ## A buffer in use -/

/-- What is done with a `HeadTail`. -/
inductive Op
  | write (p : Bytes)
  | writeChunks (chunks : List UnsafeEnvoyBuffer)
  | head
  | tail
  | reset
  deriving DecidableEq, Repr

/-- A buffer in use.  `written` is the stream so far, that is what has been written since the last `Reset`,
and `tailed` tells whether `Tail` has been called for this stream.  The answers of `Head` and of the
first `Tail` of each stream are recorded with the answers that are due: the first `headSize` and the
last `tailSize` bytes of the stream, or all of it where it is shorter. -/
structure Use where
  ht : HeadTail
  written : Bytes := []
  tailed : Bool := false
  answers : List (Bytes × Bytes) := []
  deriving DecidableEq, Repr

namespace Use

/-- A new buffer. -/
def new (headSize tailSize : ℕ) : Use := { ht := HeadTail.new headSize tailSize }

/-- One operation. -/
def step (u : Use) : Op → Option Use
  | .write p => (u.ht.write p).map fun ht => { u with ht := ht, written := u.written ++ p }
  | .writeChunks chunks =>
    (u.ht.writeChunks chunks).map fun ht =>
      { u with ht := ht, written := u.written ++ chunkBytes chunks }
  | .head =>
    some
      { u with answers := u.answers ++ [(u.ht.readHead, u.written.take u.ht.headSize)] }
  | .tail =>
    some
      { u with
        ht := u.ht.readTail.2
        tailed := true
        answers :=
          if u.tailed then u.answers
          else u.answers ++ [(u.ht.readTail.1, u.written.rtake u.ht.tail.size)] }
  | .reset => some { u with ht := u.ht.reset, written := [], tailed := false }

/-- Every answer is the one that was due. -/
def AnswersRight (u : Use) : Prop := ∀ a ∈ u.answers, a.1 = a.2

end Use

/-- The slab shows the start of the stream and the ring, until it is read, its end. -/
structure Holds (n m : ℕ) (written : Bytes) (tailed : Bool) (ht : HeadTail) : Prop where
  slab : ht.Slab n written
  wellFormed : ht.tail.WellFormed
  size : ht.tail.size = m
  content : tailed = false → ht.tail.content = written.rtake m

section

variable {n m : ℕ} {written : Bytes} {tailed : Bool} {ht : HeadTail}

lemma holds_new (hm : 0 < m) : (new n m).Holds n m [] false where
  slab := slab_new n m
  wellFormed := Ring.wellFormed_new hm
  size := rfl
  content _ := by simp [new]

/-- **`Write`** ends, and both parts keep showing the stream. -/
theorem Holds.write (h : ht.Holds n m written tailed) (p : Bytes) :
    ∃ ht', ht.write p = some ht' ∧ ht'.Holds n m (written ++ p) tailed := by
  obtain ⟨rb, hrun, hwf, hsize, hcontent⟩ := h.wellFormed.write p
  refine ⟨{ ht.copyHead p with tail := rb }, ?_, (h.slab.copyHead p).tail rb, hwf,
    hsize.trans h.size, ?_⟩
  · simp [HeadTail.write, hrun]
  · intro hread
    rw [hcontent, h.size, h.content hread, List.rtake_rtake_append]

theorem Holds.writeChunks (h : ht.Holds n m written tailed) (cs : List UnsafeEnvoyBuffer) :
    ∃ ht', ht.writeChunks cs = some ht' ∧ ht'.Holds n m (written ++ chunkBytes cs) tailed := by
  induction cs generalizing ht written with
  | nil => exact ⟨ht, rfl, by simpa using h⟩
  | cons c cs ih =>
      obtain ⟨ht₁, hwrite, h₁⟩ := h.write c.bytes
      obtain ⟨ht₂, hrest, h₂⟩ := ih h₁
      refine ⟨ht₂, ?_, by simpa [List.append_assoc] using h₂⟩
      simp only [HeadTail.writeChunks, UnsafeEnvoyBuffer.toUnsafeBytes_getD, hwrite,
        Option.bind_some, hrest]

lemma Holds.readTail (h : ht.Holds n m written tailed) : ht.readTail.2.Holds n m written true := by
  obtain ⟨-, hwf, hsize, -⟩ := h.wellFormed.bytes
  exact ⟨h.slab.tail _, hwf, hsize.trans h.size, by simp⟩

lemma Holds.reset (h : ht.Holds n m written tailed) : ht.reset.Holds n m [] false := by
  obtain ⟨hwf, hcontent⟩ := h.wellFormed.reset
  refine ⟨h.slab.reset, hwf, h.size, fun _ => ?_⟩
  simpa [HeadTail.reset] using hcontent

end

namespace Use

/-- The buffer shows the stream, and has done so whenever it was asked. -/
structure Sound (n m : ℕ) (u : Use) : Prop where
  holds : u.ht.Holds n m u.written u.tailed
  answers : u.AnswersRight

lemma answersRight_append {answers : List (Bytes × Bytes)} {a : Bytes × Bytes}
    (h : ∀ a ∈ answers, a.1 = a.2) (ha : a.1 = a.2) : ∀ b ∈ answers ++ [a], b.1 = b.2 := by
  intro b hb
  rcases List.mem_append.mp hb with hb | hb
  · exact h b hb
  · obtain rfl := List.mem_singleton.mp hb
    exact ha

/-- **One operation** can always be done and is answered as it is due. -/
theorem Sound.step {n m : ℕ} {u : Use} (hu : u.Sound n m) (op : Op) :
    ∃ u', u.step op = some u' ∧ u'.Sound n m := by
  cases op with
  | write p =>
      obtain ⟨ht, hrun, hholds⟩ := hu.holds.write p
      have hstep : u.step (.write p) = some { u with ht := ht, written := u.written ++ p } := by
        rw [Use.step, hrun]; rfl
      exact ⟨_, hstep, hholds, hu.answers⟩
  | writeChunks chunks =>
      obtain ⟨ht, hrun, hholds⟩ := hu.holds.writeChunks chunks
      have hstep : u.step (.writeChunks chunks) =
          some { u with ht := ht, written := u.written ++ chunkBytes chunks } := by
        rw [Use.step, hrun]; rfl
      exact ⟨_, hstep, hholds, hu.answers⟩
  | head =>
      refine ⟨_, rfl, hu.holds, answersRight_append hu.answers ?_⟩
      rw [hu.holds.slab.size]
      exact hu.holds.slab.shows
  | tail =>
      refine ⟨_, rfl, hu.holds.readTail, ?_⟩
      show ∀ a ∈ (if u.tailed then _ else _), _
      cases hread : u.tailed with
      | true => exact hu.answers
      | false =>
          refine answersRight_append hu.answers ?_
          rw [hu.holds.size, ← hu.holds.content hread]
          exact hu.holds.wellFormed.bytes.1
  | reset => exact ⟨_, rfl, hu.holds.reset, hu.answers⟩

end Use

end HeadTail

/-! ## Whole uses -/

open LabelledRun

/-- **Only the bytes count.**  Whatever is done with a `HeadTail`, and however the streams are cut, `Head`
returns the first bytes of the stream and the first `Tail` its last ones. -/
theorem HeadTail.answers_right (headSize tailSize : ℕ) (htail : 0 < tailSize)
    (ops : List HeadTail.Op) :
    ∃ u, run HeadTail.Use.step (HeadTail.Use.new headSize tailSize) ops = some u ∧
      u.AnswersRight := by
  have hnew : (HeadTail.Use.new headSize tailSize).Sound headSize tailSize :=
    ⟨HeadTail.holds_new htail, by simp [HeadTail.Use.AnswersRight, HeadTail.Use.new]⟩
  obtain ⟨u, hrun⟩ := run_exists (fun _ op hu => hu.step op) hnew ops
  refine ⟨u, hrun, HeadTail.Use.Sound.answers (n := headSize) (m := tailSize) ?_⟩
  refine run_invariant (I := HeadTail.Use.Sound headSize tailSize) ?_ hnew hrun
  intro u op u' hu hstep
  obtain ⟨u'', hu'', hI⟩ := hu.step op
  obtain rfl := Option.some.inj (hu''.symm.trans hstep)
  exact hI

/-- Two streams on one buffer, the first cut so that a chunk is longer than the ring. -/
def HeadTail.twoStreams : List HeadTail.Op :=
  [.write [1], .write [], .writeChunks [⟨some [2, 3, 4, 5]⟩, ⟨none⟩, ⟨some [6]⟩], .head, .tail, .reset,
    .write [7, 8], .head, .tail]

/-- Both streams are answered. -/
theorem HeadTail.answers_right_twoStreams :
    ∃ u, run HeadTail.Use.step (HeadTail.Use.new 2 3) HeadTail.twoStreams = some u ∧
      u.AnswersRight :=
  HeadTail.answers_right 2 3 (by decide) HeadTail.twoStreams

example : (run HeadTail.Use.step (HeadTail.Use.new 2 3) HeadTail.twoStreams).map (·.answers) =
    some [([1, 2], [1, 2]), ([4, 5, 6], [4, 5, 6]), ([7, 8], [7, 8]), ([7, 8], [7, 8])] := by
  decide

end Luwes
