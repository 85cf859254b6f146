import Luwes.Lib.History
import Luwes.Lib.PooledStreams

/-!
# Pooled objects that somebody else still points to

Streams work on pooled objects, as in `PooledStreams`, and a callback may leave a reference to its object
with somebody who will call it back once.  The reference is to the object, not to the stream: nothing keeps
it from being used when the stream has given the object back, and by then the object may be another stream's.

An object is tagged with the stream that has it, from `create` on to the last callback (`Tagged`).  In every
run the tags are right, and so a callback acts for its own stream exactly as long as that stream is not
complete (`sound_run`).  Where a dispatcher drops the callbacks that come later, none acts for another
(`dispatch_run`).
-/

open LabelledRun History PooledStreams

namespace PooledRefs

variable {ι α Op Out : Type*}

/-- What is done to an object, as in `PooledStreams`, and with references: which callbacks leave one, which
come by one, and which callbacks the order of events allows after others of the stream. -/
structure Code (ι α Op Out : Type*) extends PooledStreams.Code ι α Op Out where
  keeps : Op → Bool
  late : Op → Bool
  allowed : List Op → Op → Bool

/-- All streams: the pool, the object each stream has, the reference it has left, and the record. -/
structure System (ι α Op Out : Type*) where
  pool : ObjectPool α := {}
  own : ι → Option ℕ := fun _ => none
  ref : ι → Option ℕ := fun _ => none
  trace : List (Entry ι Op Out) := []

/-- A step: a stream is created, a callback runs, or the reference of a stream is dropped. -/
inductive Label (ι Op : Type*)
  | create (i : ι) (choice : Option ℕ)
  | callback (i : ι) (op : Op)
  | drop (i : ι)
  deriving DecidableEq, Repr

namespace System

variable [DecidableEq ι]

/-- The callbacks of a stream so far. -/
def entries (s : System ι α Op Out) (i : ι) : List (Entry ι Op Out) := entriesOf s.trace i

/-- A callback runs on an object. -/
def runOn (code : Code ι α Op Out) (s : System ι α Op Out) (i : ι) (a : ℕ) (op : Op) :
    Option (System ι α Op Out) :=
  (s.pool.read a).bind fun x => (code.step x op).map fun (x, out) =>
    { s with pool := s.pool.write a x, trace := s.trace ++ [⟨i, op, out⟩] }

/-- The stream gives its object back after the last callback, and leaves a reference where it has to. -/
def afterwards (code : Code ι α Op Out) (s : System ι α Op Out) (i : ι) (a : ℕ) (op : Op) :
    System ι α Op Out :=
  if code.last op then { s with pool := s.pool.put a, own := Function.update s.own i none }
  else if code.keeps op then { s with ref := Function.update s.ref i (some a) }
  else s

/-- One step.  A stream is created once. -/
def step (code : Code ι α Op Out) (s : System ι α Op Out) : Label ι Op → Option (System ι α Op Out)
  | .create i choice =>
    if s.own i = none ∧ (s.entries i).isEmpty then
      (s.pool.get code.new choice).bind fun (a, pool) => (pool.read a).map fun x =>
        { s with pool := pool.write a (code.create i x), own := Function.update s.own i (some a) }
    else none
  | .callback i op =>
    if code.late op then
      (s.ref i).bind fun a => { s with ref := Function.update s.ref i none }.runOn code i a op
    else if code.allowed ((s.entries i).map (·.op)) op then
      (s.own i).bind fun a => (s.runOn code i a op).map fun s => s.afterwards code i a op
    else none
  | .drop i => if s.own i = none then some { s with ref := Function.update s.ref i none } else none

end System

/-! ## Tags -/

/-- The tag of an object is the stream that has it, and what a callback does, `on` which streams, it does
for the tag. -/
structure Tagged (code : Code ι α Op Out) (tag : α → Option ι) (on : Out → List ι) : Prop where
  new : tag code.new = none
  create : ∀ i x, tag (code.create i x) = some i
  step : ∀ x op x' out, code.step x op = some (x', out) →
    tag x' = (if code.last op then none else tag x) ∧ ∀ j ∈ on out, tag x = some j
  late : ∀ op, code.late op = true → code.last op = false

/-- The stream has made its last callback. -/
def Complete (code : Code ι α Op Out) (tr : List (Entry ι Op Out)) (i : ι) : Prop :=
  ∃ e ∈ tr, e.stream = i ∧ code.last e.op = true

/-- After these callbacks of any streams, a callback acts for its own stream if that is not complete, and for
others if it is, and only one that comes by a reference is made for a stream that is. -/
def ActsInTime (code : Code ι α Op Out) (on : Out → List ι) (pre : List (Entry ι Op Out))
    (e : Entry ι Op Out) : Prop :=
  (∀ j ∈ on e.out, j = e.stream ↔ ¬ Complete code pre e.stream) ∧
    (code.late e.op = false → ¬ Complete code pre e.stream)

namespace System

variable [DecidableEq ι] {code : Code ι α Op Out} {tag : α → Option ι} {on : Out → List ι}
  {s s' : System ι α Op Out} {i : ι}

/-- The tags say who has which object, streams that have one are not complete, and a reference is to the
object that the stream has, or had when it was complete. -/
structure Sound (code : Code ι α Op Out) (tag : α → Option ι) (on : Out → List ι)
    (s : System ι α Op Out) : Prop where
  owned : s.pool.Owned s.own
  tags : ∀ a x, s.pool.read a = some x → ∀ j, tag x = some j ↔ s.own j = some a
  complete : ∀ j, s.entries j ≠ [] → (s.own j = none ↔ Complete code s.trace j)
  ref : ∀ j a, s.ref j = some a → s.entries j ≠ [] ∧ (s.own j = some a ∨ s.own j = none)
  acts : Always (ActsInTime code on) s.trace

lemma sound_new : ({} : System ι α Op Out).Sound code tag on where
  owned := ObjectPool.owned_empty
  tags a x hx := by simp [ObjectPool.read] at hx
  complete j hj := absurd rfl hj
  ref j a ha := by simp at ha
  acts := always_nil

lemma Sound.create (h : s.Sound code tag on) (htag : Tagged code tag on) {choice : Option ℕ}
    (hrun : s.step code (.create i choice) = some s') : s'.Sound code tag on := by
  rw [System.step] at hrun
  split_ifs at hrun with hguard
  obtain ⟨hnone, hempty⟩ := hguard
  obtain ⟨⟨a, pool⟩, hget, hrest⟩ := Option.bind_eq_some_iff.mp hrun
  obtain ⟨x, hx, rfl⟩ := Option.map_eq_some_iff.mp hrest
  obtain ⟨howned, -⟩ := h.owned.get (i := i) hget
  have hself : Function.update s.own i (some a) i = some a := Function.update_self ..
  have hothers {j : ι} (hj : j ≠ i) : Function.update s.own i (some a) j = s.own j :=
    Function.update_of_ne hj ..
  refine ⟨howned.write _ _, fun b y hy j => ?_, fun j hj => ?_, fun j b hb => ?_, h.acts⟩
  · by_cases hba : b = a
    · subst hba
      obtain rfl : code.create i x = y := Option.some.inj ((ObjectPool.read_write_self hx).symm.trans hy)
      rw [htag.create]
      refine ⟨fun hij => Option.some.inj hij ▸ hself, fun hj => ?_⟩
      rw [howned.inj i j b hself hj]
    · have hold : s.pool.read b = some y :=
        ObjectPool.read_of_get hget ((ObjectPool.read_write_ne hba _).symm.trans hy) hba
      rw [h.tags b y hold]
      by_cases hji : j = i
      · subst hji
        simp [hnone, Ne.symm hba]
      · dsimp only
        rw [hothers hji]
  · have hji : j ≠ i := by
      rintro rfl
      exact hj (List.isEmpty_iff.mp hempty)
    dsimp only
    rw [hothers hji]
    exact h.complete j hj
  · obtain ⟨hentries, hown⟩ := h.ref j b hb
    have hji : j ≠ i := by
      rintro rfl
      exact hentries (List.isEmpty_iff.mp hempty)
    dsimp only
    rw [hothers hji]
    exact ⟨hentries, hown⟩

lemma Sound.tags_write (h : s.Sound code tag on) {a : ℕ} {x x' : α} (hx : s.pool.read a = some x)
    (hsame : tag x' = tag x) (b : ℕ) (y : α) (hy : (s.pool.write a x').read b = some y) (j : ι) :
    tag y = some j ↔ s.own j = some b := by
  by_cases hba : b = a
  · subst hba
    obtain rfl : x' = y := Option.some.inj ((ObjectPool.read_write_self hx).symm.trans hy)
    rw [hsame]
    exact h.tags b x hx j
  · exact h.tags b y ((ObjectPool.read_write_ne hba _).symm.trans hy) j

lemma Sound.incomplete (h : s.Sound code tag on) {a : ℕ} (hi : s.own i = some a) :
    ¬ Complete code s.trace i := by
  intro hcomplete
  obtain ⟨e, he, hstream, -⟩ := id hcomplete
  have hentries : s.entries i ≠ [] := List.ne_nil_of_mem (List.mem_filter.mpr ⟨he, by simp [hstream]⟩)
  rw [(h.complete i hentries).mpr hcomplete] at hi
  cases hi

/-- What a callback does, it does for the stream that has the object. -/
lemma Sound.acts_concat (h : s.Sound code tag on) (htag : Tagged code tag on) {a : ℕ} {x x' : α} {op : Op}
    {out : Out} (hx : s.pool.read a = some x) (hstep : code.step x op = some (x', out))
    (hi : s.own i = some a ∨ code.late op = true ∧ s.own i = none ∧ s.entries i ≠ []) :
    Always (ActsInTime code on) (s.trace ++ [⟨i, op, out⟩]) := by
  have hown (j : ι) (hj : j ∈ on out) : s.own j = some a :=
    (h.tags a x hx j).mp ((htag.step x op x' out hstep).2 j hj)
  refine always_concat.mpr ⟨h.acts, ?_⟩
  rcases hi with hi | ⟨hlate, hi, hentries⟩
  · exact ⟨fun j hj => iff_of_true (h.owned.inj j i a (hown j hj) hi) (h.incomplete hi),
      fun _ => h.incomplete hi⟩
  · refine ⟨fun j hj => iff_of_false ?_ (not_not.mpr ((h.complete i hentries).mp hi)), fun hnot => ?_⟩
    · rintro rfl
      rw [hown j hj] at hi
      cases hi
    · rw [hlate] at hnot
      cases hnot

omit [DecidableEq ι] in
lemma complete_concat {tr : List (Entry ι Op Out)} {e : Entry ι Op Out} {j : ι} :
    Complete code (tr ++ [e]) j ↔ Complete code tr j ∨ e.stream = j ∧ code.last e.op = true := by
  simp [Complete, or_and_right, exists_or]

lemma entries_concat_ne_nil {op : Op} {out : Out} {j : ι} :
    entriesOf (s.trace ++ [⟨i, op, out⟩]) j ≠ [] ↔ j = i ∨ s.entries j ≠ [] := by
  by_cases hj : j = i
  · subst hj
    simp [entriesOf_concat_self]
  · rw [entriesOf_concat_ne hj, entries]
    exact (or_iff_right hj).symm

lemma Sound.late (h : s.Sound code tag on) (htag : Tagged code tag on) {op : Op} (hlate : code.late op = true)
    (hrun : s.step code (.callback i op) = some s') : s'.Sound code tag on := by
  rw [System.step, if_pos hlate] at hrun
  obtain ⟨a, ha, hrest⟩ := Option.bind_eq_some_iff.mp hrun
  obtain ⟨x, hx, hrest⟩ := Option.bind_eq_some_iff.mp hrest
  obtain ⟨⟨x', out⟩, hstep, rfl⟩ := Option.map_eq_some_iff.mp hrest
  obtain ⟨hentries, hown⟩ := h.ref i a ha
  have hlast := htag.late op hlate
  have hsame : tag x' = tag x := by
    rw [(htag.step x op x' out hstep).1, hlast]
    rfl
  refine ⟨h.owned.write _ _, h.tags_write hx hsame, fun j hj => ?_, fun j b hb => ?_,
    h.acts_concat htag hx hstep (hown.imp_right fun hi => ⟨hlate, hi, hentries⟩)⟩
  · have hnot : ¬ (i = j ∧ code.last op = true) := by simp [hlast]
    rw [complete_concat, or_iff_left hnot]
    by_cases hji : j = i
    · subst hji
      exact h.complete j hentries
    · exact h.complete j ((entries_concat_ne_nil.mp hj).resolve_left hji)
  · by_cases hji : j = i
    · subst hji
      simp at hb
    · obtain ⟨hne, hown⟩ := h.ref j b (by simpa [hji] using hb)
      exact ⟨entries_concat_ne_nil.mpr (.inr hne), hown⟩

lemma Sound.callback (h : s.Sound code tag on) (htag : Tagged code tag on) {op : Op}
    (hlate : code.late op = false) (hrun : s.step code (.callback i op) = some s') :
    s'.Sound code tag on := by
  rw [System.step, if_neg (by simp [hlate])] at hrun
  split_ifs at hrun with hallowed
  obtain ⟨a, ha, hrest⟩ := Option.bind_eq_some_iff.mp hrun
  obtain ⟨s₁, hs₁, rfl⟩ := Option.map_eq_some_iff.mp hrest
  obtain ⟨x, hx, hrest⟩ := Option.bind_eq_some_iff.mp hs₁
  obtain ⟨⟨x', out⟩, hstep, rfl⟩ := Option.map_eq_some_iff.mp hrest
  have hacts := h.acts_concat htag hx hstep (.inl ha)
  obtain ⟨htagx, -⟩ := htag.step x op x' out hstep
  rw [afterwards]
  cases hlast : code.last op with
  | true =>
      rw [if_pos rfl]
      rw [hlast, if_pos rfl] at htagx
      refine ⟨(h.owned.write a x').put ha, fun b y hy j => ?_, fun j hj => ?_, fun j b hb => ?_, hacts⟩
      · by_cases hba : b = a
        · subst hba
          obtain rfl : x' = y := Option.some.inj ((ObjectPool.read_write_self hx).symm.trans hy)
          rw [htagx]
          refine iff_of_false (by simp) fun hj => ?_
          by_cases hji : j = i
          · subst hji
            simp at hj
          · exact hji (h.owned.inj j i b (by simpa [hji] using hj) ha)
        · rw [h.tags b y ((ObjectPool.read_write_ne hba _).symm.trans hy)]
          by_cases hji : j = i
          · subst hji
            simp [ha, Ne.symm hba]
          · simp [hji]
      · rw [complete_concat]
        by_cases hji : j = i
        · subst hji
          simp [hlast]
        · simp [hji, Ne.symm hji, h.complete j ((entries_concat_ne_nil.mp hj).resolve_left hji)]
      · by_cases hji : j = i
        · subst hji
          exact ⟨entries_concat_ne_nil.mpr (.inl rfl), .inr (Function.update_self ..)⟩
        · obtain ⟨hne, hown⟩ := h.ref j b hb
          exact ⟨entries_concat_ne_nil.mpr (.inr hne), by simpa [hji] using hown⟩
  | false =>
      rw [if_neg Bool.false_ne_true]
      rw [hlast, if_neg Bool.false_ne_true] at htagx
      have hcomplete (j : ι) (hj : entriesOf (s.trace ++ [⟨i, op, out⟩]) j ≠ []) :
          s.own j = none ↔ Complete code (s.trace ++ [⟨i, op, out⟩]) j := by
        have hnot : ¬ (i = j ∧ code.last op = true) := by simp [hlast]
        rw [complete_concat, or_iff_left hnot]
        by_cases hji : j = i
        · subst hji
          exact iff_of_false (by simp [ha]) (h.incomplete ha)
        · exact h.complete j ((entries_concat_ne_nil.mp hj).resolve_left hji)
      have hold (j : ι) (b : ℕ) (hb : s.ref j = some b) :
          entriesOf (s.trace ++ [⟨i, op, out⟩]) j ≠ [] ∧ (s.own j = some b ∨ s.own j = none) :=
        ⟨entries_concat_ne_nil.mpr (.inr (h.ref j b hb).1), (h.ref j b hb).2⟩
      cases code.keeps op with
      | false => exact ⟨h.owned.write _ _, h.tags_write hx htagx, hcomplete, hold, hacts⟩
      | true =>
          refine ⟨h.owned.write _ _, h.tags_write hx htagx, hcomplete, fun j b hb => ?_, hacts⟩
          by_cases hji : j = i
          · subst hji
            obtain rfl : a = b := by simpa using hb
            exact ⟨entries_concat_ne_nil.mpr (.inl rfl), .inl ha⟩
          · exact hold j b (by simpa [hji] using hb)

lemma Sound.step (h : s.Sound code tag on) (htag : Tagged code tag on) {l : Label ι Op}
    (hrun : s.step code l = some s') : s'.Sound code tag on := by
  cases l with
  | create => exact h.create htag hrun
  | callback i op =>
      cases hlate : code.late op with
      | true => exact h.late htag hlate hrun
      | false => exact h.callback htag hlate hrun
  | drop i =>
      rw [System.step] at hrun
      split_ifs at hrun
      obtain rfl := Option.some.inj hrun
      refine ⟨h.owned, h.tags, h.complete, fun j b hb => ?_, h.acts⟩
      by_cases hji : j = i
      · subst hji
        simp at hb
      · exact h.ref j b (by simpa [hji] using hb)

/-- **The tags are right in every run**, and so a callback acts for its own stream exactly as long as the
stream is not complete. -/
theorem sound_run (htag : Tagged code tag on) {ls : List (Label ι Op)}
    (hrun : run (System.step code) {} ls = some s) : s.Sound code tag on :=
  run_invariant (fun _ _ _ h hstep => Sound.step h htag hstep) sound_new hrun

/-- How many callbacks of a kind the stream has made. -/
def count (s : System ι α Op Out) (p : Op → Bool) (i : ι) : ℕ := (s.entries i).countP fun e => p e.op

lemma count_concat (tr : List (Entry ι Op Out)) (p : Op → Bool) (op : Op) (out : Out) (i j : ι) :
    (entriesOf (tr ++ [⟨i, op, out⟩]) j).countP (fun e => p e.op) =
      (entriesOf tr j).countP (fun e => p e.op) + if j = i ∧ p op = true then 1 else 0 := by
  by_cases hj : j = i
  · subst hj
    simp [entriesOf_concat_self, List.countP_append, List.countP_singleton]
  · simp [entriesOf_concat_ne hj, hj]

/-- A step that is no callback leaves the record as it is, and leaves no reference. -/
lemma step_cases {l : Label ι Op} (hrun : s.step code l = some s') :
    s'.trace = s.trace ∧ (∀ j, s'.ref j = s.ref j ∨ s'.ref j = none) ∨ ∃ i op, l = .callback i op := by
  cases l with
  | create i choice =>
      rw [System.step] at hrun
      split_ifs at hrun
      obtain ⟨⟨a, pool⟩, -, hrest⟩ := Option.bind_eq_some_iff.mp hrun
      obtain ⟨x, -, rfl⟩ := Option.map_eq_some_iff.mp hrest
      exact .inl ⟨rfl, fun _ => .inl rfl⟩
  | drop i =>
      rw [System.step] at hrun
      split_ifs at hrun
      obtain rfl := Option.some.inj hrun
      refine .inl ⟨rfl, fun j => ?_⟩
      by_cases hji : j = i
      · subst hji
        exact .inr (Function.update_self ..)
      · exact .inl (Function.update_of_ne hji ..)
  | callback i op => exact .inr ⟨i, op, rfl⟩

lemma callback_changes {op : Op} (hrun : s.step code (.callback i op) = some s') :
    (∃ out x x', s'.trace = s.trace ++ [⟨i, op, out⟩] ∧ code.step x op = some (x', out)) ∧
      (code.late op = false → code.allowed ((s.entries i).map (·.op)) op = true) ∧
      (∀ j, j ≠ i → s'.ref j = s.ref j) ∧
      if code.late op then s.ref i ≠ none ∧ s'.ref i = none
      else s'.ref i = s.ref i ∨ code.keeps op = true := by
  rw [System.step] at hrun
  split_ifs at hrun with hlate hallowed
  · obtain ⟨a, ha, hrest⟩ := Option.bind_eq_some_iff.mp hrun
    obtain ⟨x, -, hrest⟩ := Option.bind_eq_some_iff.mp hrest
    obtain ⟨⟨x', out⟩, hstep, rfl⟩ := Option.map_eq_some_iff.mp hrest
    rw [if_pos hlate]
    exact ⟨⟨out, x, x', rfl, hstep⟩, by simp [hlate], fun j hj => Function.update_of_ne hj .., by simp [ha],
      Function.update_self ..⟩
  · obtain ⟨a, -, hrest⟩ := Option.bind_eq_some_iff.mp hrun
    obtain ⟨s₁, hs₁, rfl⟩ := Option.map_eq_some_iff.mp hrest
    obtain ⟨x, -, hrest⟩ := Option.bind_eq_some_iff.mp hs₁
    obtain ⟨⟨x', out⟩, hstep, rfl⟩ := Option.map_eq_some_iff.mp hrest
    rw [if_neg hlate, afterwards]
    split_ifs with hlast hkeeps
    · exact ⟨⟨out, x, x', rfl, hstep⟩, fun _ => hallowed, fun _ _ => rfl, .inl rfl⟩
    · exact ⟨⟨out, x, x', rfl, hstep⟩, fun _ => hallowed, fun j hj => Function.update_of_ne hj .., .inr hkeeps⟩
    · exact ⟨⟨out, x, x', rfl, hstep⟩, fun _ => hallowed, fun _ _ => rfl, .inl rfl⟩

/-- Whether a reference of the stream is there, as a number. -/
def pending (s : System ι α Op Out) (i : ι) : ℕ := (s.ref i).toList.length

omit [DecidableEq ι] in
lemma pending_le_one (s : System ι α Op Out) (i : ι) : s.pending i ≤ 1 := by
  rw [pending]
  cases s.ref i <;> simp

/-- Every use of a reference is one that was left, and was not used before. -/
def UsedOnce (code : Code ι α Op Out) (s : System ι α Op Out) : Prop :=
  ∀ j, s.count code.late j + s.pending j ≤ s.count code.keeps j

lemma UsedOnce.step (h : s.UsedOnce code) {l : Label ι Op} (hrun : s.step code l = some s') :
    s'.UsedOnce code := by
  intro j
  have hj := h j
  rcases step_cases hrun with ⟨htr, href⟩ | ⟨i, op, rfl⟩
  · have hle : s'.pending j ≤ s.pending j := by
      rcases href j with hsame | hnone
      · exact Nat.le_of_eq (by rw [pending, hsame, pending])
      · simp [pending, hnone]
    simp only [count, entries, htr] at hj ⊢
    omega
  · obtain ⟨⟨out, -, -, htr, -⟩, -, hothers, href⟩ := callback_changes hrun
    simp only [count, entries, htr, count_concat] at hj ⊢
    by_cases hji : j = i
    · subst hji
      have hle := s'.pending_le_one j
      split_ifs at href with hlate
      · obtain ⟨hsome, hnone⟩ := href
        obtain ⟨a, ha⟩ := Option.ne_none_iff_exists'.mp hsome
        simp only [pending, ha, hnone] at hj ⊢
        simp [hlate] at hj ⊢
        omega
      · rcases href with hsame | hkeeps
        · simp only [pending, hsame] at hj ⊢
          simp [hlate] at hj ⊢
          omega
        · simp [hlate, hkeeps]
          omega
    · have hsame : s'.pending j = s.pending j := by rw [pending, hothers j hji, pending]
      rw [hsame]
      simpa [hji] using hj

lemma usedOnce_run {ls : List (Label ι Op)} (hrun : run (System.step code) {} ls = some s) :
    s.UsedOnce code :=
  run_invariant (I := UsedOnce code) (fun _ _ _ h hstep => UsedOnce.step h hstep)
    (fun _ => by simp [count, entries, entriesOf, pending]) hrun

/-- An entry of the record, after those before it: what a callback has done to some object, and one that the
order of events allows. -/
def Recorded (code : Code ι α Op Out) (pre : List (Entry ι Op Out)) (e : Entry ι Op Out) : Prop :=
  (∃ x x', code.step x e.op = some (x', e.out)) ∧
    (code.late e.op = false → code.allowed ((entriesOf pre e.stream).map (·.op)) e.op = true)

lemma recorded_run {ls : List (Label ι Op)} (hrun : run (System.step code) {} ls = some s) :
    Always (Recorded code) s.trace := by
  refine run_invariant (I := fun s => Always (Recorded code) s.trace) (fun s l s' h hstep => ?_)
    always_nil hrun
  rcases step_cases hstep with ⟨htr, -⟩ | ⟨i, op, rfl⟩
  · rwa [htr]
  · obtain ⟨⟨out, x, x', htr, hx⟩, hallowed, -⟩ := callback_changes hstep
    rw [htr]
    exact always_concat.mpr ⟨h, ⟨x, x', hx⟩, hallowed⟩

/-! ## A dispatcher -/

instance (tr : List (Entry ι Op Out)) (i : ι) : Decidable (Complete code tr i) :=
  inferInstanceAs (Decidable (∃ e ∈ tr, e.stream = i ∧ code.last e.op = true))

/-- A step behind a dispatcher, which drops a callback that comes by a reference when the stream is
complete. -/
def dispatch (code : Code ι α Op Out) (s : System ι α Op Out) : Label ι Op → Option (System ι α Op Out)
  | .callback i op =>
    if code.late op = true ∧ Complete code s.trace i then
      (s.ref i).map fun _ => { s with ref := Function.update s.ref i none }
    else s.step code (.callback i op)
  | .create i choice => s.step code (.create i choice)
  | .drop i => s.step code (.drop i)

/-- The callback may come now. -/
def Expects (code : Code ι α Op Out) (s : System ι α Op Out) (i : ι) (op : Op) : Prop :=
  if code.late op = true then s.ref i ≠ none
  else s.own i ≠ none ∧ code.allowed ((s.entries i).map (·.op)) op = true

/-- A dropped callback leaves what a dropped reference leaves. -/
lemma Sound.drop_of_complete (h : s.Sound code tag on) (hcomplete : Complete code s.trace i) :
    s.step code (.drop i) = some { s with ref := Function.update s.ref i none } := by
  obtain ⟨e, he, hstream, -⟩ := id hcomplete
  have hentries : s.entries i ≠ [] := List.ne_nil_of_mem (List.mem_filter.mpr ⟨he, by simp [hstream]⟩)
  rw [System.step, if_pos ((h.complete i hentries).mpr hcomplete)]

/-- **Behind a dispatcher** the runs are runs without one, and no callback by a reference is for a stream that
is complete. -/
theorem dispatch_run (htag : Tagged code tag on) {ls : List (Label ι Op)}
    (hrun : run (System.dispatch code) {} ls = some s) :
    (∃ ls', run (System.step code) {} ls' = some s) ∧
      Always (fun pre e => code.late e.op = true → ¬ Complete code pre e.stream) s.trace := by
  refine run_invariant (I := fun s => (∃ ls', run (System.step code) {} ls' = some s) ∧
    Always (fun pre e => code.late e.op = true → ¬ Complete code pre e.stream) s.trace)
    (fun s l s' ⟨⟨ls', hls⟩, hintime⟩ hstep => ?_) ⟨⟨[], rfl⟩, always_nil⟩ hrun
  have hgo (l' : Label ι Op) (hl : s.step code l' = some s') :
      ∃ ls', run (System.step code) {} ls' = some s' :=
    ⟨ls' ++ [l'], run_concat.mpr ⟨s, hls, hl⟩⟩
  cases l with
  | create i choice =>
      change s.step code (.create i choice) = some s' at hstep
      refine ⟨hgo _ hstep, ?_⟩
      rcases step_cases hstep with ⟨htr, -⟩ | ⟨_, _, hl⟩
      · rwa [htr]
      · cases hl
  | drop i =>
      change s.step code (.drop i) = some s' at hstep
      refine ⟨hgo _ hstep, ?_⟩
      rcases step_cases hstep with ⟨htr, -⟩ | ⟨_, _, hl⟩
      · rwa [htr]
      · cases hl
  | callback i op =>
      rw [dispatch] at hstep
      split_ifs at hstep with hlate
      · obtain ⟨a, -, rfl⟩ := Option.map_eq_some_iff.mp hstep
        exact ⟨hgo _ ((sound_run htag hls).drop_of_complete hlate.2), hintime⟩
      · obtain ⟨⟨out, -, -, htr, -⟩, -⟩ := callback_changes hstep
        refine ⟨hgo _ hstep, ?_⟩
        rw [htr]
        exact always_concat.mpr ⟨hintime, fun hop hcomplete => hlate ⟨hop, hcomplete⟩⟩

/-- A callback that may come does not fail, if the code does not on an object that a stream has. -/
lemma Sound.dispatch_isSome (h : s.Sound code tag on)
    (htotal : ∀ x op, tag x ≠ none → (code.step x op).isSome = true) {op : Op}
    (hexpects : s.Expects code i op) : (s.dispatch code (.callback i op)).isSome = true := by
  have hobject {a : ℕ} (ha : s.own i = some a) : ∃ x y, s.pool.read a = some x ∧ code.step x op = some y := by
    obtain ⟨x, hx⟩ := h.owned.exists_read ha
    have htagged : tag x ≠ none := by
      rw [(h.tags a x hx i).mpr ha]
      exact Option.some_ne_none i
    obtain ⟨y, hy⟩ := Option.isSome_iff_exists.mp (htotal x op htagged)
    exact ⟨x, y, hx, hy⟩
  rw [Expects] at hexpects
  rw [dispatch]
  split_ifs at hexpects with hlate
  · obtain ⟨a, ha⟩ := Option.ne_none_iff_exists'.mp hexpects
    split_ifs with hdropped
    · rw [ha]
      rfl
    · obtain ⟨hentries, hown⟩ := h.ref i a ha
      have hi : s.own i = some a := hown.resolve_right fun hnone =>
        hdropped ⟨hlate, (h.complete i hentries).mp hnone⟩
      obtain ⟨x, y, hx, hy⟩ := hobject hi
      simp [System.step, hlate, ha, runOn, hx, hy]
  · obtain ⟨a, ha⟩ := Option.ne_none_iff_exists'.mp hexpects.1
    obtain ⟨x, y, hx, hy⟩ := hobject ha
    rw [if_neg fun hdropped => hlate hdropped.1]
    simp [System.step, hlate, hexpects.2, ha, runOn, hx, hy]

end System

end PooledRefs
