import Luwes.Lib.LabelledRun
import Luwes.Lib.ObjectPool
import Mathlib.Data.List.Induction

/-!
# Streams that work on pooled objects

A factory hands every new stream an object of a pool.  The callbacks of the stream run on that object,
those of many streams in any order, until a last one gives the object back; the next stream that gets it
finds in it what the last one has left.

`Code` is what the callbacks do to an object.  A stream that had an object of its own is described by an
abstract machine, `Alone`, and `Refines` is what there is to show about one object: that it is made, or made
ready again, as the machine starts, and that every callback does what the machine does.  Then every stream
of every run answers as it would alone (`isolated_run`).
-/

open LabelledRun

namespace PooledStreams

variable {ι α β Op Out : Type*}

/-- What is done to an object: how the pool makes one, what `create` writes into it for a stream, what a
callback does (`none` if it panics), and which callbacks give the object back. -/
structure Code (ι α Op Out : Type*) where
  new : α
  create : ι → α → α
  step : α → Op → Option (α × Out)
  last : Op → Bool

/-- A callback that has run. -/
structure Entry (ι Op Out : Type*) where
  stream : ι
  op : Op
  out : Out
  deriving DecidableEq, Repr

/-- The callbacks of a stream in a record. -/
def entriesOf [DecidableEq ι] (tr : List (Entry ι Op Out)) (i : ι) : List (Entry ι Op Out) :=
  tr.filter (·.stream = i)

section

variable [DecidableEq ι] {tr : List (Entry ι Op Out)} {i j : ι} {op : Op} {out : Out}

lemma entriesOf_concat_self : entriesOf (tr ++ [⟨i, op, out⟩]) i = entriesOf tr i ++ [⟨i, op, out⟩] := by
  simp [entriesOf]

lemma entriesOf_concat_ne (h : j ≠ i) : entriesOf (tr ++ [⟨i, op, out⟩]) j = entriesOf tr j := by
  simp [entriesOf, Ne.symm h]

end

/-- All streams of a factory: the pool, the object each stream has, and the record. -/
structure System (ι α Op Out : Type*) where
  pool : ObjectPool α := {}
  own : ι → Option ℕ := fun _ => none
  trace : List (Entry ι Op Out) := []

/-- A step: the factory creates a stream, with the choice of the pool, or a callback runs. -/
inductive Label (ι Op : Type*)
  | create (i : ι) (choice : Option ℕ)
  | callback (i : ι) (op : Op)
  deriving DecidableEq, Repr

namespace System

variable [DecidableEq ι]

/-- The callbacks of a stream so far. -/
def entries (s : System ι α Op Out) (i : ι) : List (Entry ι Op Out) := entriesOf s.trace i

/-- One step.  A stream is created once, and after the last callback there are no more. -/
def step (code : Code ι α Op Out) (s : System ι α Op Out) : Label ι Op → Option (System ι α Op Out)
  | .create i choice =>
    if s.own i = none ∧ (s.entries i).isEmpty then
      (s.pool.get code.new choice).bind fun (a, pool) => (pool.read a).map fun x =>
        { s with pool := pool.write a (code.create i x), own := Function.update s.own i (some a) }
    else none
  | .callback i op =>
    (s.own i).bind fun a => (s.pool.read a).bind fun x => (code.step x op).map fun (x, out) =>
      let s := { s with pool := s.pool.write a x, trace := s.trace ++ [⟨i, op, out⟩] }
      if code.last op then { s with pool := s.pool.put a, own := Function.update s.own i none } else s

end System

/-! ## A stream of its own -/

/-- The machine for one stream. -/
structure Machine (ι β Op Out : Type*) where
  init : ι → β
  step : β → Op → Option (β × Out)

/-- One step of the machine, with what it has answered. -/
def Machine.answer (m : Machine ι β Op Out) (s : β × List Out) (op : Op) : Option (β × List Out) :=
  (m.step s.1 op).map fun (b, out) => (b, s.2 ++ [out])

/-- The callbacks that have run are a run of the machine, which is now in state `b`. -/
def Machine.Answers (m : Machine ι β Op Out) (i : ι) (es : List (Entry ι Op Out)) (b : β) : Prop :=
  run m.answer (m.init i, []) (es.map (·.op)) = some (b, es.map (·.out))

/-- The object does what the machine does.  `R i x b` relates an object that stream `i` has to the state of
the machine, and `Free` is what is known of an object that is given back. -/
structure Refines (code : Code ι α Op Out) (m : Machine ι β Op Out) (Free : α → Prop)
    (R : ι → α → β → Prop) : Prop where
  new : Free code.new
  create : ∀ i x, Free x → R i (code.create i x) (m.init i)
  step : ∀ i x b op x' out, R i x b → code.step x op = some (x', out) →
    ∃ b', m.step b op = some (b', out) ∧ if code.last op then Free x' else R i x' b'

variable [DecidableEq ι] {code : Code ι α Op Out} {m : Machine ι β Op Out} {Free : α → Prop}
  {R : ι → α → β → Prop} {s s' : System ι α Op Out} {i : ι}

omit [DecidableEq ι] in
/-- The record of a stream tells where the machine is. -/
lemma Machine.Answers.unique {es : List (Entry ι Op Out)} {b b' : β} (h : m.Answers i es b)
    (h' : m.Answers i es b') : b = b' :=
  (Prod.mk.inj (Option.some.inj (h.symm.trans h'))).1

omit [DecidableEq ι] in
lemma Machine.Answers.concat {es : List (Entry ι Op Out)} {b b' : β} {op : Op} {out : Out}
    (h : m.Answers i es b) (hstep : m.step b op = some (b', out)) : m.Answers i (es ++ [⟨i, op, out⟩]) b' := by
  rw [Machine.Answers, List.map_append, List.map_append]
  exact run_concat.mpr ⟨_, h, by simp [Machine.answer, hstep]⟩

omit [DecidableEq ι] in
/-- What holds of the machine at its start and is kept by every callback holds after a record. -/
lemma Machine.Answers.invariant {P : List (Entry ι Op Out) → β → Prop} (hinit : P [] (m.init i))
    (hstep : ∀ es b e b', P es b → m.step b e.op = some (b', e.out) → P (es ++ [e]) b')
    {es : List (Entry ι Op Out)} {b : β} (h : m.Answers i es b) : P es b := by
  induction es using List.reverseRecOn generalizing b with
  | nil =>
      obtain rfl := (Prod.mk.inj (Option.some.inj h)).1
      exact hinit
  | append_singleton es e ih =>
      rw [Machine.Answers, List.map_append, List.map_append] at h
      obtain ⟨⟨b₀, outs⟩, h₀, hlast⟩ := run_concat.mp h
      obtain ⟨⟨b', out⟩, hb', heq⟩ := Option.map_eq_some_iff.mp hlast
      obtain ⟨rfl, houts⟩ := Prod.mk.inj heq
      obtain ⟨rfl, hout⟩ := List.append_inj' houts rfl
      obtain rfl := List.singleton_inj.mp hout
      exact hstep es b₀ e b' (ih h₀) hb'

namespace System

/-- A stream that has an object is where the machine is, and every stream has answered as the machine. -/
structure Isolated (m : Machine ι β Op Out) (Free : α → Prop) (R : ι → α → β → Prop)
    (s : System ι α Op Out) : Prop where
  owned : s.pool.Owned s.own
  free : ∀ a ∈ s.pool.free, ∃ x, s.pool.read a = some x ∧ Free x
  live : ∀ i a, s.own i = some a → ∃ x b, s.pool.read a = some x ∧ R i x b ∧ m.Answers i (s.entries i) b
  answered : ∀ i, ∃ b, m.Answers i (s.entries i) b

lemma isolated_new : ({} : System ι α Op Out).Isolated m Free R where
  owned := ObjectPool.owned_empty
  free := by simp
  live := by simp
  answered i := ⟨m.init i, rfl⟩

lemma create_eq_some {choice : Option ℕ} (hrun : s.step code (.create i choice) = some s') :
    s.own i = none ∧ s.entries i = [] ∧ ∃ a pool x,
      s.pool.get code.new choice = some (a, pool) ∧ pool.read a = some x ∧
        { s with pool := pool.write a (code.create i x), own := Function.update s.own i (some a) } = s' := by
  rw [System.step] at hrun
  split_ifs at hrun with hguard
  obtain ⟨⟨a, pool⟩, hget, hrest⟩ := Option.bind_eq_some_iff.mp hrun
  obtain ⟨x, hx, heq⟩ := Option.map_eq_some_iff.mp hrest
  exact ⟨hguard.1, List.isEmpty_iff.mp hguard.2, a, pool, x, hget, hx, heq⟩

/-- A new stream has an object and has made no callbacks; nothing else has changed for anybody. -/
lemma create_changes {choice : Option ℕ} (hrun : s.step code (.create i choice) = some s') :
    s.own i = none ∧ s.entries i = [] ∧ s'.own i ≠ none ∧ (∀ j, j ≠ i → s'.own j = s.own j) ∧
      s'.trace = s.trace := by
  obtain ⟨hnone, hempty, a, pool, x, -, -, rfl⟩ := create_eq_some hrun
  exact ⟨hnone, hempty, by simp, fun j hj => Function.update_of_ne hj .., rfl⟩

lemma Isolated.create (h : s.Isolated m Free R) (href : Refines code m Free R) {choice : Option ℕ}
    (hrun : s.step code (.create i choice) = some s') : s'.Isolated m Free R := by
  obtain ⟨-, hempty, a, pool, x, hget, hx, rfl⟩ := create_eq_some hrun
  obtain ⟨howned, -⟩ := h.owned.get (i := i) hget
  obtain ⟨hsub, hcases⟩ := ObjectPool.get_cases hget
  have hfree : Free x := by
    rcases hcases with ⟨-, hnew⟩ | ⟨hmem, hheap⟩
    · exact Option.some.inj (hnew.symm.trans hx) ▸ href.new
    · obtain ⟨y, hy, hfree⟩ := h.free a hmem
      rw [ObjectPool.read, ← hheap] at hy
      exact Option.some.inj (hy.symm.trans hx) ▸ hfree
  refine ⟨howned.write _ _, fun b hb => ?_, fun j b hb => ?_, h.answered⟩
  · have hne : b ≠ a := by
      rintro rfl
      exact howned.busy i b (by simp) hb
    obtain ⟨y, hy, hfree⟩ := h.free b (hsub.subset hb)
    exact ⟨y, by rw [ObjectPool.read_write_ne hne]; exact ObjectPool.read_get hget hy, hfree⟩
  · by_cases hji : j = i
    · subst hji
      obtain rfl : a = b := by simpa using hb
      refine ⟨_, _, ObjectPool.read_write_self hx, href.create j x hfree, ?_⟩
      exact (congrArg (m.Answers j · (m.init j)) hempty).mpr rfl
    · have hne : b ≠ a := howned.ne (i := i) (by simp) hb hji
      obtain ⟨y, b', hy, hR, hanswers⟩ := h.live j b (by simpa [hji] using hb)
      exact ⟨y, b', by rw [ObjectPool.read_write_ne hne]; exact ObjectPool.read_get hget hy, hR, hanswers⟩

lemma callback_eq_some {op : Op} (hrun : s.step code (.callback i op) = some s') :
    ∃ a, s.own i = some a ∧ ∃ x, s.pool.read a = some x ∧ ∃ x' out, code.step x op = some (x', out) ∧
      (if code.last op then
        { pool := (s.pool.write a x').put a, own := Function.update s.own i none,
          trace := s.trace ++ [⟨i, op, out⟩] }
      else { s with pool := s.pool.write a x', trace := s.trace ++ [⟨i, op, out⟩] }) = s' := by
  obtain ⟨a, ha, hrest⟩ := Option.bind_eq_some_iff.mp hrun
  obtain ⟨x, hx, hrest⟩ := Option.bind_eq_some_iff.mp hrest
  obtain ⟨⟨x', out⟩, hstep, heq⟩ := Option.map_eq_some_iff.mp hrest
  exact ⟨a, ha, x, hx, x', out, hstep, heq⟩

lemma Isolated.callback (h : s.Isolated m Free R) (href : Refines code m Free R) {op : Op}
    (hrun : s.step code (.callback i op) = some s') : s'.Isolated m Free R := by
  obtain ⟨a, ha, x, hx, x', out, hstep, rfl⟩ := callback_eq_some hrun
  obtain ⟨y, b, hy, hR, hanswers⟩ := h.live i a ha
  obtain rfl := Option.some.inj (hy.symm.trans hx)
  obtain ⟨b', hb', hR'⟩ := href.step i y b op x' out hR hstep
  have hself : m.Answers i (entriesOf (s.trace ++ [⟨i, op, out⟩]) i) b' := by
    rw [entriesOf_concat_self]
    exact hanswers.concat hb'
  have hentries {j : ι} (hj : j ≠ i) : entriesOf (s.trace ++ [⟨i, op, out⟩]) j = s.entries j :=
    entriesOf_concat_ne hj
  have hread : (s.pool.write a x').read a = some x' := ObjectPool.read_write_self hx
  have hkept {c : ℕ} (hc : c ≠ a) : (s.pool.write a x').read c = s.pool.read c :=
    ObjectPool.read_write_ne hc x'
  have hfree (c : ℕ) (hc : c ∈ s.pool.free) : ∃ y, (s.pool.write a x').read c = some y ∧ Free y := by
    have hne : c ≠ a := fun heq => h.owned.busy i a ha (heq ▸ hc)
    exact hkept hne ▸ h.free c hc
  have hlive {j : ι} (hj : j ≠ i) (c : ℕ) (hc : s.own j = some c) : ∃ y b,
      (s.pool.write a x').read c = some y ∧ R j y b ∧
        m.Answers j (entriesOf (s.trace ++ [⟨i, op, out⟩]) j) b := by
    rw [hkept (h.owned.ne ha hc hj), hentries hj]
    exact h.live j c hc
  have hanswered (j : ι) : ∃ b, m.Answers j (entriesOf (s.trace ++ [⟨i, op, out⟩]) j) b := by
    by_cases hji : j = i
    · exact ⟨b', hji ▸ hself⟩
    · exact hentries hji ▸ h.answered j
  cases hlast : code.last op with
  | true =>
      rw [hlast, if_pos rfl] at hR'
      refine ⟨(h.owned.write a x').put ha, fun c hc => ?_, fun j c hc => ?_, hanswered⟩
      · rcases List.mem_cons.mp hc with rfl | hc
        · exact ⟨x', hread, hR'⟩
        · exact hfree c hc
      · have hji : j ≠ i := by
          rintro rfl
          simp at hc
        exact hlive hji c (by simpa [hji] using hc)
  | false =>
      rw [hlast, if_neg (by simp)] at hR'
      refine ⟨h.owned.write a x', hfree, fun j c hc => ?_, hanswered⟩
      by_cases hji : j = i
      · subst hji
        obtain rfl := Option.some.inj (ha.symm.trans hc)
        exact ⟨x', b', hread, hR', hself⟩
      · exact hlive hji c hc

/-- **What a callback does** is a step of the machine, whatever object the stream has. -/
lemma Isolated.callback_answers (h : s.Isolated m Free R) (href : Refines code m Free R) {op : Op}
    (hrun : s.step code (.callback i op) = some s') :
    ∃ b b' out, m.Answers i (s.entries i) b ∧ m.step b op = some (b', out) ∧ s.own i ≠ none ∧
      s'.trace = s.trace ++ [⟨i, op, out⟩] ∧
      s'.own = if code.last op then Function.update s.own i none else s.own := by
  obtain ⟨a, ha, x, hx, x', out, hstep, rfl⟩ := callback_eq_some hrun
  obtain ⟨y, b, hy, hR, hanswers⟩ := h.live i a ha
  obtain rfl := Option.some.inj (hy.symm.trans hx)
  obtain ⟨b', hb', -⟩ := href.step i y b op x' out hR hstep
  refine ⟨b, b', out, hanswers, hb', by simp [ha], ?_⟩
  cases hlast : code.last op <;> exact ⟨rfl, rfl⟩

lemma Isolated.step (h : s.Isolated m Free R) (href : Refines code m Free R) {l : Label ι Op}
    (hrun : s.step code l = some s') : s'.Isolated m Free R := by
  cases l with
  | create => exact h.create href hrun
  | callback => exact h.callback href hrun

/-- Where an object never panics, a stream that has one can make every callback. -/
lemma Isolated.enabled (h : s.Isolated m Free R) {op : Op}
    (hsafe : ∀ i x b, R i x b → ∃ x' out, code.step x op = some (x', out)) (hown : s.own i ≠ none) :
    ∃ s', s.step code (.callback i op) = some s' := by
  obtain ⟨a, ha⟩ := Option.ne_none_iff_exists'.mp hown
  obtain ⟨x, b, hx, hR, -⟩ := h.live i a ha
  obtain ⟨x', out, hstep⟩ := hsafe i x b hR
  exact ⟨_, by rw [System.step, ha, Option.bind_some, hx, Option.bind_some, hstep, Option.map_some]⟩

/-- **Isolation.**  In every run, every stream answers as if it were alone. -/
theorem isolated_run (href : Refines code m Free R) {ls : List (Label ι Op)}
    (hrun : run (System.step code) {} ls = some s) : s.Isolated m Free R :=
  run_invariant (fun _ _ _ h hstep => Isolated.step h href hstep) isolated_new hrun

end System

end PooledStreams
