import Luwes.Lib.LabelledRun
import Luwes.Lib.Window
import Luwes.Shared.Base

/-!
# The ring buffer (`buffer/buffer.go`)

A `Ring` keeps the last `size` bytes that were written.  `Bytes` returns them oldest first and, when the
ring is full, rotates the storage in place by three reversals.  After that "the ring is in a clean
linearised state; subsequent Write calls continue normally".

It is, and they do not: the rotation also sets `pos` to 0 and clears `full`, and a ring that is not
full with `pos` at 0 is an empty one.  So a ring keeps what was written since the last `Bytes` that
found it full (`Ring.content_write`), and the answers of `Bytes` and `Len` are right exactly when
nothing has been lost that way, or enough has been written since.

The slice that `Bytes` returns is the storage of the ring, and here a copy of it: a caller that writes to it
is left out.
-/

namespace Luwes

/-- `Ring`. -/
structure Ring where
  data : List UInt8
  size : ℕ
  pos : ℕ
  full : Bool
  deriving DecidableEq, Repr

/-- `slices.Reverse(data[lo:hi])`. -/
def reverseRange (data : List UInt8) (lo hi : ℕ) : List UInt8 :=
  data.take lo ++ ((data.take hi).drop lo).reverse ++ data.drop hi

namespace Ring

/-- `NewRing`. -/
def new (size : ℕ) : Ring where
  data := List.replicate size 0
  size := size
  pos := 0
  full := false

/-- `copy(rb.data[rb.pos:], p)`: the storage after it and the number of bytes copied. -/
def copyIn (rb : Ring) (p : Bytes) : List UInt8 × ℕ :=
  let n := min (rb.data.length - rb.pos) p.length
  (rb.data.take rb.pos ++ p.take n ++ rb.data.drop (rb.pos + n), n)

/-- The body of the loop of `Write`: the ring and the bytes that are left. -/
def writeStep (rb : Ring) (p : Bytes) : Ring × Bytes :=
  let r := rb.copyIn p
  let pos := rb.pos + r.2
  if pos ≥ rb.size then ({ rb with data := r.1, pos := 0, full := true }, p.drop r.2)
  else ({ rb with data := r.1, pos := pos }, p.drop r.2)

/-- The loop of `Write`, at most `fuel` iterations; `none` if bytes are left then. -/
def writeLoop : ℕ → Ring → Bytes → Option Ring
  | _, rb, [] => some rb
  | 0, _, _ :: _ => none
  | fuel + 1, rb, b :: p =>
    let r := rb.writeStep (b :: p)
    writeLoop fuel r.1 r.2

/-- `Write`.  An iteration that consumes nothing is repeated for ever, so a loop that has not ended
after as many iterations as there are bytes never ends. -/
def write (rb : Ring) (p : Bytes) : Option Ring := writeLoop p.length rb p

/-- `WriteChunks`. -/
def writeChunks (rb : Ring) : List UnsafeEnvoyBuffer → Option Ring
  | [] => some rb
  | c :: cs => (rb.write (c.toUnsafeBytes.getD [])).bind fun rb => rb.writeChunks cs

/-- `Bytes`: what is returned, and the ring after it. -/
def bytes (rb : Ring) : Bytes × Ring :=
  if !rb.full then (rb.data.take rb.pos, rb)
  else
    let data := reverseRange rb.data 0 rb.pos
    let data := reverseRange data rb.pos rb.size
    let data := reverseRange data 0 rb.size
    (data.take rb.size, { rb with data := data, pos := 0, full := false })

/-- `Reset`. -/
def reset (rb : Ring) : Ring := { rb with pos := 0, full := false }

/-- `Len`. -/
def len (rb : Ring) : ℕ := if rb.full then rb.size else rb.pos

/-! ## What a ring holds -/

/-- The bytes in the ring, oldest first. -/
def content (rb : Ring) : Bytes :=
  if rb.full then rb.data.drop rb.pos ++ rb.data.take rb.pos else rb.data.take rb.pos

/-- The storage has the size it was made with, and `pos` is a place in it. -/
structure WellFormed (rb : Ring) : Prop where
  length : rb.data.length = rb.size
  pos : rb.pos < rb.size

lemma wellFormed_new {n : ℕ} (hn : 0 < n) : (new n).WellFormed where
  length := List.length_replicate
  pos := hn

@[simp] lemma content_new (n : ℕ) : (new n).content = [] := by simp [content, new]

lemma WellFormed.length_content {rb : Ring} (h : rb.WellFormed) :
    rb.content.length = rb.len := by
  have hlen := h.length
  have hpos := h.pos
  unfold content len
  split
  · simp only [List.length_append, List.length_drop, List.length_take]
    omega
  · simp only [List.length_take]
    omega

lemma WellFormed.len_le {rb : Ring} (h : rb.WellFormed) : rb.len ≤ rb.size := by
  have hpos := h.pos
  unfold len
  split <;> omega

/-- Reversing both parts and then the whole exchanges the parts. -/
lemma reverseRange_rotates {data : List UInt8} {pos : ℕ} (hpos : pos ≤ data.length) :
    reverseRange (reverseRange (reverseRange data 0 pos) pos data.length) 0 data.length =
      data.drop pos ++ data.take pos := by
  have hlen : (data.take pos).length = pos := List.length_take_of_le hpos
  have hfirst : reverseRange data 0 pos = (data.take pos).reverse ++ data.drop pos := by
    simp [reverseRange]
  have hsecond : reverseRange ((data.take pos).reverse ++ data.drop pos) pos data.length =
      (data.take pos).reverse ++ (data.drop pos).reverse := by
    have hall : data.length = ((data.take pos).reverse ++ data.drop pos).length := by
      simp only [List.length_append, List.length_reverse, hlen, List.length_drop]
      omega
    rw [reverseRange, hall, List.take_length, List.drop_length, List.append_nil]
    simp [hlen]
  rw [hfirst, hsecond]
  have hall : data.length = ((data.take pos).reverse ++ (data.drop pos).reverse).length := by
    simp only [List.length_append, List.length_reverse, hlen, List.length_drop]
    omega
  rw [reverseRange, hall, List.take_length, List.drop_length]
  simp

/-! ## Writing -/

/-- What one iteration of `Write` copies. -/
def room (rb : Ring) (p : Bytes) : ℕ := min (rb.size - rb.pos) p.length

lemma WellFormed.copyIn {rb : Ring} (h : rb.WellFormed) (p : Bytes) : rb.copyIn p =
    (rb.data.take rb.pos ++ p.take (rb.room p) ++ rb.data.drop (rb.pos + rb.room p), rb.room p) := by
  simp [Ring.copyIn, room, h.length]

lemma WellFormed.room_pos {rb : Ring} (h : rb.WellFormed) {p : Bytes} (hp : p ≠ []) :
    0 < rb.room p := by
  have hpos := h.pos
  have hlen := List.length_pos_iff.mpr hp
  unfold room
  omega

/-- **One iteration of `Write`** consumes some bytes and slides the window over them. -/
lemma WellFormed.writeStep {rb : Ring} (h : rb.WellFormed) (p : Bytes) :
    (rb.writeStep p).1.WellFormed ∧ (rb.writeStep p).1.size = rb.size ∧
      (rb.writeStep p).2 = p.drop (rb.room p) ∧
      (rb.writeStep p).1.content = (rb.content ++ p.take (rb.room p)).rtake rb.size := by
  have hlen := h.length
  have hpos := h.pos
  have hroom : rb.room p ≤ rb.size - rb.pos ∧ rb.room p ≤ p.length := by
    unfold room
    omega
  obtain ⟨hroom, hp⟩ := hroom
  unfold Ring.writeStep
  rw [h.copyIn]
  generalize rb.room p = k at hroom hp ⊢
  have htake : (p.take k).length = k := List.length_take_of_le hp
  have hold : (rb.data.take rb.pos).length = rb.pos := List.length_take_of_le (by omega)
  have hnew : (rb.data.take rb.pos ++ p.take k).length = rb.pos + k := by simp [hold, htake]
  have hdata : (rb.data.take rb.pos ++ p.take k ++ rb.data.drop (rb.pos + k)).length = rb.size := by
    rw [List.length_append, hnew, List.length_drop]
    omega
  -- The window after the copy: of the old bytes there is what the new ones leave room for.
  have hwindow : (rb.content ++ p.take k).rtake rb.size =
      (if rb.full then (rb.data.drop rb.pos).rtake (rb.size - (rb.pos + k)) else []) ++
        (rb.data.take rb.pos ++ p.take k) := by
    have hself : (rb.data.take rb.pos ++ p.take k).rtake rb.size =
        rb.data.take rb.pos ++ p.take k := List.rtake_of_length_le (by omega)
    unfold content
    split
    · rw [List.append_assoc, List.rtake_append, hself, hnew]
    · rw [hself, List.nil_append]
  rw [hwindow]
  by_cases hwrap : rb.pos + k ≥ rb.size
  · -- The copy has reached the end of the storage.
    have hrest : rb.data.drop (rb.pos + k) = [] := List.drop_eq_nil_of_le (by omega)
    have hroom : rb.size - (rb.pos + k) = 0 := by omega
    rw [if_pos hwrap]
    refine ⟨⟨hdata, by show 0 < rb.size; omega⟩, rfl, rfl, ?_⟩
    simp [content, hrest, hroom]
  · rw [if_neg hwrap]
    refine ⟨⟨hdata, by show rb.pos + k < rb.size; omega⟩, rfl, rfl, ?_⟩
    have hkept : (rb.data.drop rb.pos).rtake (rb.size - (rb.pos + k)) = rb.data.drop (rb.pos + k) := by
      rw [List.rtake, List.length_drop, List.drop_drop]
      congr 1
      omega
    rw [hkept]
    unfold content
    simp only [List.take_left' hnew, List.drop_left' hnew]
    split <;> simp

lemma WellFormed.rtake_content {rb : Ring} (h : rb.WellFormed) :
    rb.content.rtake rb.size = rb.content :=
  List.rtake_of_length_le (by rw [h.length_content]; exact h.len_le)

lemma WellFormed.writeLoop {rb : Ring} (h : rb.WellFormed) {p : Bytes} {fuel : ℕ}
    (hfuel : p.length ≤ fuel) : ∃ rb', Ring.writeLoop fuel rb p = some rb' ∧ rb'.WellFormed ∧
      rb'.size = rb.size ∧ rb'.content = (rb.content ++ p).rtake rb.size := by
  induction fuel generalizing rb p with
  | zero =>
      obtain rfl : p = [] := List.length_eq_zero_iff.mp (by omega)
      exact ⟨rb, rfl, h, rfl, by simp [h.rtake_content]⟩
  | succ fuel ih =>
      cases p with
      | nil => exact ⟨rb, rfl, h, rfl, by simp [h.rtake_content]⟩
      | cons b p =>
          obtain ⟨hwf, hsize, hrest, hcontent⟩ := h.writeStep (b :: p)
          have hroom := h.room_pos (p := b :: p) (by simp)
          have hless : (rb.writeStep (b :: p)).2.length ≤ fuel := by
            rw [hrest, List.length_drop]
            omega
          obtain ⟨rb', hrun, hwf', hsize', hcontent'⟩ := ih hwf hless
          refine ⟨rb', hrun, hwf', hsize'.trans hsize, ?_⟩
          rw [hcontent', hsize, hcontent, hrest, List.rtake_rtake_append, List.append_assoc,
            List.take_append_drop]

/-- **`Write`** ends, and slides the window over all the bytes. -/
theorem WellFormed.write {rb : Ring} (h : rb.WellFormed) (p : Bytes) :
    ∃ rb', rb.write p = some rb' ∧ rb'.WellFormed ∧ rb'.size = rb.size ∧
      rb'.content = (rb.content ++ p).rtake rb.size :=
  h.writeLoop (Nat.le_refl _)

theorem WellFormed.writeChunks {rb : Ring} (h : rb.WellFormed) (cs : List UnsafeEnvoyBuffer) :
    ∃ rb', rb.writeChunks cs = some rb' ∧ rb'.WellFormed ∧ rb'.size = rb.size ∧
      rb'.content = (rb.content ++ chunkBytes cs).rtake rb.size := by
  induction cs generalizing rb with
  | nil => exact ⟨rb, rfl, h, rfl, by simp [h.rtake_content]⟩
  | cons c cs ih =>
      obtain ⟨rb₁, hwrite, hwf₁, hsize₁, hcontent₁⟩ := h.write c.bytes
      obtain ⟨rb₂, hrest, hwf₂, hsize₂, hcontent₂⟩ := ih hwf₁
      refine ⟨rb₂, ?_, hwf₂, hsize₂.trans hsize₁, ?_⟩
      · simp only [Ring.writeChunks, UnsafeEnvoyBuffer.toUnsafeBytes_getD, hwrite, Option.bind_some, hrest]
      · rw [hcontent₂, hsize₁, hcontent₁, List.rtake_rtake_append, chunkBytes_cons, List.append_assoc]

/-! ## Reading -/

/-- **`Bytes`** returns the content, and a ring that was full is empty after it. -/
theorem WellFormed.bytes {rb : Ring} (h : rb.WellFormed) :
    rb.bytes.1 = rb.content ∧ rb.bytes.2.WellFormed ∧ rb.bytes.2.size = rb.size ∧
      rb.bytes.2.content = if rb.full then [] else rb.content := by
  have hlen := h.length
  have hpos := h.pos
  unfold Ring.bytes
  cases hfull : rb.full with
  | false => simp [content, hfull, h]
  | true =>
      have hle : rb.pos ≤ rb.data.length := by omega
      have hrot := reverseRange_rotates hle
      rw [hlen] at hrot
      have hsize : (rb.data.drop rb.pos ++ rb.data.take rb.pos).length = rb.size := by
        simp only [List.length_append, List.length_drop, List.length_take]
        omega
      simp only [Bool.not_true, Bool.false_eq_true, if_false, hrot, if_true]
      refine ⟨?_, ⟨hsize, by show 0 < rb.size; omega⟩, trivial, by simp [content]⟩
      rw [List.take_of_length_le (by omega), content, if_pos hfull]

lemma WellFormed.reset {rb : Ring} (h : rb.WellFormed) :
    rb.reset.WellFormed ∧ rb.reset.content = [] :=
  ⟨⟨h.length, Nat.lt_of_le_of_lt (Nat.zero_le _) h.pos⟩, by simp [Ring.reset, content]⟩

/-! ## A ring in use -/

/-- What is done with a ring. -/
inductive Op
  | write (p : Bytes)
  | writeChunks (chunks : List UnsafeEnvoyBuffer)
  | bytes
  | len
  | reset
  deriving DecidableEq, Repr

/-- What `Bytes` and `Len` return. -/
inductive Answer
  | bytes (b : Bytes)
  | len (n : ℕ)
  deriving DecidableEq, Repr

/-- A ring in use.  `written` is what has been written since the last `Reset`, and `fresh` what has been
written since the last `Bytes` that found the ring full, or `Reset`.  Each answer is recorded with the
answer that was due. -/
structure Use where
  ring : Ring
  written : Bytes := []
  fresh : Bytes := []
  answers : List (Answer × Answer) := []
  deriving DecidableEq, Repr

namespace Use

/-- A new ring. -/
def new (n : ℕ) : Use := { ring := Ring.new n }

/-- The bytes `p` have been written, and `rb` is the ring after that. -/
def wrote (u : Use) (rb : Ring) (p : Bytes) : Use :=
  { u with ring := rb, written := u.written ++ p, fresh := u.fresh ++ p }

/-- One operation. -/
def step (u : Use) : Op → Option Use
  | .write p => (u.ring.write p).map fun rb => u.wrote rb p
  | .writeChunks chunks =>
    (u.ring.writeChunks chunks).map fun rb => u.wrote rb (chunkBytes chunks)
  | .bytes =>
    some
      { u with
        ring := u.ring.bytes.2
        fresh := if u.ring.full then [] else u.fresh
        answers := u.answers ++
          [(.bytes u.ring.bytes.1, .bytes (u.written.rtake u.ring.size))] }
  | .len =>
    some
      { u with
        answers := u.answers ++ [(.len u.ring.len, .len (min u.ring.size u.written.length))] }
  | .reset => some { u with ring := u.ring.reset, written := [], fresh := [] }

/-- Every answer is the one that was due. -/
def AnswersRight (u : Use) : Prop := ∀ a ∈ u.answers, a.1 = a.2

/-- If the operation is `Bytes` or `Len`, no `Bytes` since the last `Reset` has found the ring full, or as
many bytes as the ring has room for have been written since. -/
def AsksInTime (u : Use) : Op → Prop
  | .bytes | .len => u.ring.size ≤ u.fresh.length ∨ u.fresh = u.written
  | _ => True

instance (u : Use) : DecidablePred u.AsksInTime := fun op => by
  cases op <;> unfold AsksInTime <;> infer_instance

/-- The ring holds the window of what is fresh. -/
structure Sound (n : ℕ) (u : Use) : Prop where
  wellFormed : u.ring.WellFormed
  size : u.ring.size = n
  content : u.ring.content = u.fresh.rtake n
  suffix : u.fresh <:+ u.written

lemma sound_new {n : ℕ} (hn : 0 < n) : (new n).Sound n where
  wellFormed := wellFormed_new hn
  size := rfl
  content := by simp [new]
  suffix := List.suffix_refl _

lemma Sound.wrote {n : ℕ} {u : Use} (hu : u.Sound n) {rb : Ring} {p : Bytes}
    (h : rb.WellFormed ∧ rb.size = u.ring.size ∧
      rb.content = (u.ring.content ++ p).rtake u.ring.size) : (u.wrote rb p).Sound n where
  wellFormed := h.1
  size := h.2.1.trans hu.size
  content := by
    show rb.content = (u.fresh ++ p).rtake n
    rw [h.2.2, hu.size, hu.content, List.rtake_rtake_append]
  suffix := by
    obtain ⟨zs, hzs⟩ := hu.suffix
    exact ⟨zs, by simp [Use.wrote, ← hzs]⟩

/-- An answer is right exactly when the fresh bytes show the same window as all bytes. -/
lemma Sound.answer_iff {n : ℕ} {u : Use} (hu : u.Sound n) :
    (u.ring.content = u.written.rtake n ↔ n ≤ u.fresh.length ∨ u.fresh = u.written) ∧
      (u.ring.len = min n u.written.length ↔ n ≤ u.fresh.length ∨ u.fresh = u.written) := by
  constructor
  · rw [hu.content]
    exact List.rtake_eq_iff_of_suffix hu.suffix
  · rw [← hu.wellFormed.length_content, hu.content, List.length_rtake]
    have hle := hu.suffix.length_le
    constructor
    · intro hlen
      by_cases hfull : n ≤ u.fresh.length
      · exact .inl hfull
      · exact .inr (hu.suffix.eq_of_length (by omega))
    · rintro (hfull | heq)
      · omega
      · rw [heq]

lemma answersRight_append {u u' : Use} {a : Answer × Answer} (h : u'.answers = u.answers ++ [a]) :
    u'.AnswersRight ↔ u.AnswersRight ∧ a.1 = a.2 := by
  simp [AnswersRight, h, or_imp, forall_and]

/-- **One operation** can always be done, keeps the window of the fresh bytes, and answers right exactly
when it asks in time. -/
theorem Sound.step {n : ℕ} {u : Use} (hu : u.Sound n) (op : Op) :
    ∃ u', u.step op = some u' ∧ u'.Sound n ∧
      (u'.AnswersRight ↔ u.AnswersRight ∧ u.AsksInTime op) := by
  cases op with
  | write p =>
      obtain ⟨rb, hrun, hwrote⟩ := hu.wellFormed.write p
      have hstep : u.step (.write p) = some (u.wrote rb p) := by rw [Use.step, hrun]; rfl
      exact ⟨_, hstep, hu.wrote hwrote, by simp [AnswersRight, AsksInTime, Use.wrote]⟩
  | writeChunks chunks =>
      obtain ⟨rb, hrun, hwrote⟩ := hu.wellFormed.writeChunks chunks
      have hstep : u.step (.writeChunks chunks) = some (u.wrote rb (chunkBytes chunks)) := by
        rw [Use.step, hrun]; rfl
      exact ⟨_, hstep, hu.wrote hwrote, by simp [AnswersRight, AsksInTime, Use.wrote]⟩
  | bytes =>
      obtain ⟨hret, hwf, hsize, hcontent⟩ := hu.wellFormed.bytes
      refine ⟨_, rfl, ⟨hwf, hsize.trans hu.size, ?_, ?_⟩, ?_⟩
      · show u.ring.bytes.2.content = (if u.ring.full then [] else u.fresh).rtake n
        rw [hcontent, hu.content]
        split <;> simp
      · show (if u.ring.full then [] else u.fresh) <:+ u.written
        split
        · exact List.nil_suffix
        · exact hu.suffix
      · rw [answersRight_append (u := u) rfl, hret, AsksInTime, hu.size, ← hu.answer_iff.1]
        simp
  | len =>
      refine ⟨_, rfl, ⟨hu.wellFormed, hu.size, hu.content, hu.suffix⟩, ?_⟩
      rw [answersRight_append (u := u) rfl, AsksInTime, hu.size, ← hu.answer_iff.2]
      simp
  | reset =>
      obtain ⟨hwf, hcontent⟩ := hu.wellFormed.reset
      refine ⟨_, rfl, ⟨hwf, hu.size, by simp [hcontent], List.suffix_refl _⟩, ?_⟩
      simp [AnswersRight, AsksInTime]

end Use

end Ring

/-! ## Whole uses -/

open LabelledRun

/-- **The exact condition.**  Every sequence of operations can be done, and its answers are right exactly
when `Bytes` and `Len` are only called while nothing has been lost to an earlier `Bytes`, or after
enough has been written since. -/
theorem answersRight_iff (n : ℕ) (hn : 0 < n) (ops : List Ring.Op) :
    ∃ u, run Ring.Use.step (Ring.Use.new n) ops = some u ∧
      (u.AnswersRight ↔ Along Ring.Use.step Ring.Use.AsksInTime (Ring.Use.new n) ops) := by
  have hnew := Ring.Use.sound_new hn
  obtain ⟨u, hrun⟩ := run_exists (I := Ring.Use.Sound n)
    (fun u op hu => by obtain ⟨u', hu', hI, -⟩ := hu.step op; exact ⟨u', hu', hI⟩) hnew ops
  refine ⟨u, hrun, ?_⟩
  have hstep : ∀ u op u', Ring.Use.Sound n u → u.step op = some u' →
      u'.Sound n ∧ (u'.AnswersRight ↔ u.AnswersRight ∧ u.AsksInTime op) := by
    intro u op u' hu h
    obtain ⟨u'', hu'', hfacts⟩ := hu.step op
    obtain rfl := Option.some.inj (hu''.symm.trans h)
    exact hfacts
  have h := run_iff_along (I := Ring.Use.Sound n) (P := Ring.Use.AnswersRight)
    (fun u op u' hu h => (hstep u op u' hu h).1) (fun u op u' hu h => (hstep u op u' hu h).2) hnew hrun
  rw [h]
  exact and_iff_right (by simp [Ring.Use.AnswersRight, Ring.Use.new])

/-- A full ring is read twice. -/
def readTwice : List Ring.Op := [.write [1, 2, 3], .bytes, .bytes]

/-- The second `Bytes` of a full ring returns nothing. -/
theorem readTwice_empty :
    ¬ ∀ (n : ℕ), 0 < n → ∀ (ops : List Ring.Op) (u : Ring.Use),
      run Ring.Use.step (Ring.Use.new n) ops = some u → u.AnswersRight := by
  intro h
  have hright := h 2 (by decide) readTwice _ rfl
  exact absurd (hright (.bytes [], .bytes [2, 3]) (by decide)) (by decide)

/-- A ring that is read before it is full, and then filled and read. -/
def readThenFilled : List Ring.Op := [.write [1], .bytes, .len, .write [2, 3], .bytes]

/-- The condition evaluated on such a use. -/
theorem answersRight_iff_readThenFilled :
    ∃ u, run Ring.Use.step (Ring.Use.new 2) readThenFilled = some u ∧
      (u.AnswersRight ↔ Along Ring.Use.step Ring.Use.AsksInTime (Ring.Use.new 2) readThenFilled) :=
  answersRight_iff 2 (by decide) readThenFilled

end Luwes
