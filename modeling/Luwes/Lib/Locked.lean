import Luwes.Lib.History
import Luwes.Lib.LabelledRun
import Mathlib.Data.List.Induction
import Mathlib.Logic.Function.Basic

/-!
# Objects in parts, each part behind a lock

An object consists of parts, and each operation works on one of them.  A thread that calls an operation
takes the lock of the part, loads the part, stores what the operation makes of it, and gives the lock
back when it returns.  Loading and storing are steps of their own: without the lock, what another thread
has stored in between would be lost.

`Linearizable obj a h` compares what the threads see with an object that is used by nobody else: each
call has one effect between its beginning and its return, and answers what `obj` answers there, after the
effects before it.  `run_inv` shows it for the parts behind their locks, and `Linearizable.of_simulation`
carries it from one object to another that simulates it.
-/

open LabelledRun

namespace Locked

/-! ## Sequential objects and histories -/

section Linearizable

variable {τ Op Res A B : Type*}

/-- What there is to see of the calls.  `effect` is the moment in which an operation is done. -/
inductive Event (τ Op Res : Type*)
  | call (t : τ) (op : Op)
  | effect (t : τ) (op : Op) (res : Res)
  | ret (t : τ) (op : Op) (res : Res)

/-- The thread of an event. -/
def Event.thread : Event τ Op Res → τ
  | .call t _ | .effect t _ _ | .ret t _ _ => t

/-- The operation that is done. -/
def Event.done? : Event τ Op Res → Option Op
  | .effect _ op _ => some op
  | _ => none

/-- The operations in the order in which they are done. -/
def done (h : List (Event τ Op Res)) : List Op := h.filterMap Event.done?

/-- The object after some operations. -/
def after (obj : A → Op → A × Res) (a : A) (ops : List Op) : A :=
  ops.foldl (fun a op => (obj a op).1) a

/-- What a thread has done last. -/
def lastOf [DecidableEq τ] (t : τ) (h : List (Event τ Op Res)) : Option (Event τ Op Res) :=
  (h.filter fun e => decide (e.thread = t)).getLast?

/-- A thread calls, then the operation is done, then the call returns, and so on; and the operation
answers as `obj` does after the operations before it. -/
def Explained [DecidableEq τ] (obj : A → Op → A × Res) (a : A) (past : List (Event τ Op Res)) :
    Event τ Op Res → Prop
  | .call t _ => ∀ e, lastOf t past = some e → ∃ op res, e = .ret t op res
  | .effect t op res =>
    lastOf t past = some (.call t op) ∧ res = (obj (after obj a (done past)) op).2
  | .ret t op res => lastOf t past = some (.effect t op res)

/-- Every event is one that `obj` explains. -/
def Linearizable [DecidableEq τ] (obj : A → Op → A × Res) (a : A) (h : List (Event τ Op Res)) :
    Prop :=
  History.Always (Explained obj a) h

@[simp] lemma done_append (xs ys : List (Event τ Op Res)) : done (xs ++ ys) = done xs ++ done ys :=
  List.filterMap_append

@[simp] lemma done_call (t : τ) (op : Op) : done [(.call t op : Event τ Op Res)] = [] := rfl

@[simp] lemma done_effect (t : τ) (op : Op) (res : Res) : done [.effect t op res] = [op] := rfl

@[simp] lemma done_ret (t : τ) (op : Op) (res : Res) : done [.ret t op res] = [] := rfl

@[simp] lemma after_nil (obj : A → Op → A × Res) (a : A) : after obj a [] = a := rfl

@[simp] lemma after_concat (obj : A → Op → A × Res) (a : A) (ops : List Op) (op : Op) :
    after obj a (ops ++ [op]) = (obj (after obj a ops) op).1 := by
  simp [after]

lemma lastOf_concat [DecidableEq τ] (t : τ) (h : List (Event τ Op Res)) (e : Event τ Op Res) :
    lastOf t (h ++ [e]) = if e.thread = t then some e else lastOf t h := by
  by_cases he : e.thread = t
  · simp [lastOf, he]
  · simp [lastOf, he]

/-- Where the last event of a thread stands. -/
lemma eq_append_of_lastOf [DecidableEq τ] {t : τ} {h : List (Event τ Op Res)} {e : Event τ Op Res}
    (he : lastOf t h = some e) :
    ∃ before during, h = before ++ e :: during ∧ ∀ x ∈ during, x.thread ≠ t := by
  induction h using List.reverseRecOn with
  | nil => cases he
  | append_singleton h x ih =>
      rw [lastOf_concat] at he
      split_ifs at he with hx
      · obtain rfl := Option.some.inj he
        exact ⟨h, [], rfl, by simp⟩
      · obtain ⟨before, during, rfl, hduring⟩ := ih he
        exact ⟨before, during ++ [x], by simp, List.forall_mem_append.mpr ⟨hduring, by simpa using hx⟩⟩

section Simulation

variable {obj : A → Op → A × Res} {obj' : B → Op → B × Res} {R : A → B → Prop} {a : A} {b : B}

lemma after_simulation (hR : ∀ a b op, R a b → R (obj a op).1 (obj' b op).1 ∧
      (obj a op).2 = (obj' b op).2)
    (h : R a b) (ops : List Op) : R (after obj a ops) (after obj' b ops) := by
  induction ops generalizing a b with
  | nil => exact h
  | cons op ops ih => exact ih (hR a b op h).1

/-- **An object may be replaced by one that simulates it.** -/
theorem Linearizable.of_simulation [DecidableEq τ]
    (hR : ∀ a b op, R a b → R (obj a op).1 (obj' b op).1 ∧ (obj a op).2 = (obj' b op).2)
    (h : R a b) {hist : List (Event τ Op Res)} (hlin : Linearizable obj a hist) :
    Linearizable obj' b hist := by
  refine hlin.imp fun past e _ he => ?_
  cases e with
  | call t op => exact he
  | effect t op res =>
      obtain ⟨hlast, rfl⟩ := he
      exact ⟨hlast, (hR _ _ op (after_simulation hR h (done past))).2⟩
  | ret t op res => exact he

end Simulation

end Linearizable

/-! ## Locks -/

variable {τ ι σ Op Res : Type*}

/-- Where a thread is in a call: before the lock, with the lock, with its part loaded, with what the
operation has made of it stored. -/
inductive Phase (σ Op Res : Type*)
  | idle
  | called (op : Op)
  | entered (op : Op)
  | loaded (op : Op) (x : σ)
  | stored (op : Op) (res : Res)

/-- The parts, the threads that have their locks, and where every thread is. -/
structure State (τ ι σ Op Res : Type*) where
  parts : ι → σ
  lock : ι → Option τ := fun _ => none
  phase : τ → Phase σ Op Res := fun _ => .idle
  history : List (Event τ Op Res) := []

/-- What a thread may do. -/
inductive Label (τ Op : Type*)
  | call (t : τ) (op : Op)
  | lock (t : τ)
  | load (t : τ)
  | store (t : τ)
  | unlock (t : τ)

variable [DecidableEq τ] [DecidableEq ι] (part : Op → ι) (exec : Op → σ → Option σ × Res)

/-- The operation on all parts at once; `exec` writes nothing when it makes `none` of its part. -/
def sequential (p : ι → σ) (op : Op) : (ι → σ) × Res :=
  let r := exec op (p (part op))
  (Function.update p (part op) (r.1.getD (p (part op))), r.2)

/-- One step.  A lock may be taken when nobody has it. -/
def step (s : State τ ι σ Op Res) : Label τ Op → Option (State τ ι σ Op Res)
  | .call t op =>
    match s.phase t with
    | .idle =>
      some { s with
        phase := Function.update s.phase t (.called op)
        history := s.history ++ [.call t op] }
    | _ => none
  | .lock t =>
    match s.phase t with
    | .called op =>
      if (s.lock (part op)).isNone then
        some { s with
          lock := Function.update s.lock (part op) (some t)
          phase := Function.update s.phase t (.entered op) }
      else none
    | _ => none
  | .load t =>
    match s.phase t with
    | .entered op => some { s with phase := Function.update s.phase t (.loaded op (s.parts (part op))) }
    | _ => none
  | .store t =>
    match s.phase t with
    | .loaded op x =>
      let r := exec op x
      some { s with
        parts := Function.update s.parts (part op) (r.1.getD (s.parts (part op)))
        phase := Function.update s.phase t (.stored op r.2)
        history := s.history ++ [.effect t op r.2] }
    | _ => none
  | .unlock t =>
    match s.phase t with
    | .stored op res =>
      some { s with
        lock := Function.update s.lock (part op) none
        phase := Function.update s.phase t .idle
        history := s.history ++ [.ret t op res] }
    | _ => none

/-- All that a step can do. -/
inductive Moves (s : State τ ι σ Op Res) : State τ ι σ Op Res → Prop
  | call {t : τ} {op : Op} (h : s.phase t = .idle) :
      Moves s { s with
        phase := Function.update s.phase t (.called op)
        history := s.history ++ [.call t op] }
  | lock {t : τ} {op : Op} (h : s.phase t = .called op) (hfree : s.lock (part op) = none) :
      Moves s { s with
        lock := Function.update s.lock (part op) (some t)
        phase := Function.update s.phase t (.entered op) }
  | load {t : τ} {op : Op} (h : s.phase t = .entered op) :
      Moves s { s with phase := Function.update s.phase t (.loaded op (s.parts (part op))) }
  | store {t : τ} {op : Op} {x : σ} (h : s.phase t = .loaded op x) :
      Moves s { s with
        parts := Function.update s.parts (part op) ((exec op x).1.getD (s.parts (part op)))
        phase := Function.update s.phase t (.stored op (exec op x).2)
        history := s.history ++ [.effect t op (exec op x).2] }
  | unlock {t : τ} {op : Op} {res : Res} (h : s.phase t = .stored op res) :
      Moves s { s with
        lock := Function.update s.lock (part op) none
        phase := Function.update s.phase t .idle
        history := s.history ++ [.ret t op res] }

variable {part exec} {s s' : State τ ι σ Op Res}

theorem moves {l : Label τ Op} (h : step part exec s l = some s') : Moves part exec s s' := by
  cases l with
  | call t op =>
      cases hphase : s.phase t <;> simp only [step, hphase, Option.some.injEq, reduceCtorEq] at h
      exact h ▸ .call hphase
  | lock t =>
      cases hphase : s.phase t <;> simp only [step, hphase, reduceCtorEq] at h
      split_ifs at h with hfree
      exact Option.some.inj h ▸ .lock hphase (Option.isNone_iff_eq_none.mp hfree)
  | load t =>
      cases hphase : s.phase t <;> simp only [step, hphase, Option.some.injEq, reduceCtorEq] at h
      exact h ▸ .load hphase
  | store t =>
      cases hphase : s.phase t <;> simp only [step, hphase, Option.some.injEq, reduceCtorEq] at h
      exact h ▸ .store hphase
  | unlock t =>
      cases hphase : s.phase t <;> simp only [step, hphase, Option.some.injEq, reduceCtorEq] at h
      exact h ▸ .unlock hphase

/-- The part whose lock a thread has. -/
def Phase.inside (part : Op → ι) : Phase σ Op Res → Option ι
  | .entered op | .loaded op _ | .stored op _ => some (part op)
  | _ => none

/-- What a thread has done last when it is in a phase. -/
def Phase.Follows (t : τ) : Phase σ Op Res → Option (Event τ Op Res) → Prop
  | .idle, last => ∀ e, last = some e → ∃ op res, e = .ret t op res
  | .called op, last | .entered op, last | .loaded op _, last => last = some (.call t op)
  | .stored op res, last => last = some (.effect t op res)

variable (part exec)

/-- What holds in every run from the parts `p`.  A part that has been loaded is still what it was,
because its lock is taken. -/
structure Inv (p : ι → σ) (s : State τ ι σ Op Res) : Prop where
  owner : ∀ t i, s.lock i = some t ↔ (s.phase t).inside part = some i
  fresh : ∀ t op x, s.phase t = .loaded op x → s.parts (part op) = x
  follows : ∀ t, (s.phase t).Follows t (lastOf t s.history)
  parts : s.parts = after (sequential part exec) p (done s.history)
  explained : Linearizable (sequential part exec) p s.history

variable {part exec} {p : ι → σ}

lemma inv_new : Inv part exec p ({ parts := p } : State τ ι σ Op Res) where
  owner t i := by simp [Phase.inside]
  fresh t op x h := by simp at h
  follows t e h := by simp [lastOf] at h
  parts := rfl
  explained := History.always_nil

lemma Inv.exclusive (h : Inv part exec p s) {t t' : τ} {i : ι}
    (ht : (s.phase t).inside part = some i) (ht' : (s.phase t').inside part = some i) : t' = t :=
  Option.some.inj (((h.owner t' i).mpr ht').symm.trans ((h.owner t i).mpr ht))

lemma Inv.follows_keep (h : Inv part exec p s) {t : τ} {ph : Phase σ Op Res}
    (hph : ph.Follows t (lastOf t s.history)) (u : τ) :
    (Function.update s.phase t ph u).Follows u (lastOf u s.history) := by
  by_cases hu : u = t
  · subst hu
    rwa [Function.update_self]
  · rw [Function.update_of_ne hu]
    exact h.follows u

lemma Inv.follows_event (h : Inv part exec p s) {t : τ} {ph : Phase σ Op Res}
    {e : Event τ Op Res} (he : e.thread = t) (hph : ph.Follows t (some e)) (u : τ) :
    (Function.update s.phase t ph u).Follows u (lastOf u (s.history ++ [e])) := by
  rw [lastOf_concat, he]
  by_cases hu : u = t
  · subst hu
    rwa [Function.update_self, if_pos rfl]
  · rw [Function.update_of_ne hu, if_neg (Ne.symm hu)]
    exact h.follows u

lemma Inv.owner_update (h : Inv part exec p s) {t : τ} {ph : Phase σ Op Res} {lock : ι → Option τ}
    (hph : ∀ i, lock i = some t ↔ ph.inside part = some i)
    (hlock : ∀ u i, u ≠ t → (lock i = some u ↔ s.lock i = some u)) (u : τ) (i : ι) :
    lock i = some u ↔ (Function.update s.phase t ph u).inside part = some i := by
  by_cases hut : u = t
  · subst hut
    rw [Function.update_self]
    exact hph i
  · rw [Function.update_of_ne hut, hlock u i hut]
    exact h.owner u i

lemma Inv.owner_keep (h : Inv part exec p s) {t : τ} {ph : Phase σ Op Res}
    (hph : ph.inside part = (s.phase t).inside part) (u : τ) (i : ι) :
    s.lock i = some u ↔ (Function.update s.phase t ph u).inside part = some i :=
  h.owner_update (fun i => by rw [hph]; exact h.owner t i) (fun _ _ _ => Iff.rfl) u i

lemma Inv.fresh_update (h : Inv part exec p s) {t : τ} {ph : Phase σ Op Res} {parts : ι → σ}
    (hph : ∀ op x, ph = .loaded op x → parts (part op) = x)
    (hparts : ∀ u i, u ≠ t → (s.phase u).inside part = some i → parts i = s.parts i) (u : τ)
    (op : Op) (x : σ) (hu : Function.update s.phase t ph u = .loaded op x) :
    parts (part op) = x := by
  by_cases hut : u = t
  · subst hut
    rw [Function.update_self] at hu
    exact hph op x hu
  · rw [Function.update_of_ne hut] at hu
    rw [hparts u (part op) hut (by rw [hu, Phase.inside])]
    exact h.fresh u op x hu

lemma Inv.follows_of_phase (h : Inv part exec p s) {t : τ} {ph : Phase σ Op Res}
    (hphase : s.phase t = ph) : ph.Follows t (lastOf t s.history) :=
  hphase ▸ h.follows t

/-- A thread has at most the lock of the part it works on, and nobody else has that lock. -/
lemma Inv.owner_moves (h : Inv part exec p s) (hm : Moves part exec s s') (u : τ) (i : ι) :
    s'.lock i = some u ↔ (s'.phase u).inside part = some i := by
  cases hm with
  | call hphase => exact h.owner_keep (by rw [hphase]; rfl) u i
  | @lock t op hphase hfree =>
      refine h.owner_update (fun i => ?_) (fun u i hu => ?_) u i
      · by_cases hi : i = part op
        · simp [hi, Phase.inside]
        · simp [hi, h.owner, hphase, Phase.inside, Ne.symm hi]
      · -- nobody had the lock that is taken
        by_cases hi : i = part op
        · simp [hi, hfree, hu.symm]
        · simp [hi]
  | load hphase => exact h.owner_keep (by rw [hphase]; rfl) u i
  | store hphase => exact h.owner_keep (by rw [hphase]; rfl) u i
  | @unlock t op res hphase =>
      have howner : s.lock (part op) = some t := (h.owner t _).mpr (by rw [hphase, Phase.inside])
      refine h.owner_update (fun i => ?_) (fun u i hu => ?_) u i
      · by_cases hi : i = part op
        · simp [hi, Phase.inside]
        · simp [hi, h.owner, hphase, Phase.inside, Ne.symm hi]
      · -- the lock that is given back was that of `t`
        by_cases hi : i = part op
        · simp [hi, howner, hu.symm]
        · simp [hi]

/-- What is stored goes to a part that no other thread has loaded. -/
lemma Inv.fresh_moves (h : Inv part exec p s) (hm : Moves part exec s s') (u : τ) (op : Op) (x : σ)
    (hu : s'.phase u = .loaded op x) : s'.parts (part op) = x := by
  cases hm with
  | call hphase => exact h.fresh_update (by simp) (fun _ _ _ _ => rfl) u op x hu
  | lock hphase hfree => exact h.fresh_update (by simp) (fun _ _ _ _ => rfl) u op x hu
  | load hphase => exact h.fresh_update (by simp) (fun _ _ _ _ => rfl) u op x hu
  | @store t op' y hphase =>
      have hinside : (s.phase t).inside part = some (part op') := by rw [hphase, Phase.inside]
      refine h.fresh_update (by simp) (fun u i hne hi => Function.update_of_ne ?_ _ _) u op x hu
      rintro rfl
      exact hne (h.exclusive hinside hi)
  | unlock hphase => exact h.fresh_update (by simp) (fun _ _ _ _ => rfl) u op x hu

/-- Every thread is where its last event has left it. -/
lemma Inv.follows_moves (h : Inv part exec p s) (hm : Moves part exec s s') :
    ∀ u, (s'.phase u).Follows u (lastOf u s'.history) := by
  cases hm with
  | call hphase => exact h.follows_event rfl rfl
  | @lock t op hphase hfree =>
      have hlast : lastOf t s.history = some (.call t op) := h.follows_of_phase hphase
      exact h.follows_keep hlast
  | @load t op hphase =>
      have hlast : lastOf t s.history = some (.call t op) := h.follows_of_phase hphase
      exact h.follows_keep hlast
  | store hphase => exact h.follows_event rfl rfl
  | @unlock t op res hphase =>
      exact h.follows_event rfl fun e he => ⟨op, res, (Option.some.inj he).symm⟩

/-- The parts change with an effect, and only then. -/
lemma Inv.parts_moves (h : Inv part exec p s) (hm : Moves part exec s s') :
    s'.parts = after (sequential part exec) p (done s'.history) := by
  cases hm with
  | call hphase => simpa using h.parts
  | lock hphase hfree => exact h.parts
  | load hphase => exact h.parts
  | @store t op x hphase =>
      obtain rfl := h.fresh t op x hphase
      rw [done_append, done_effect, after_concat, ← h.parts]
      rfl
  | unlock hphase => simpa using h.parts

/-- Every new event is one that the object explains. -/
lemma Inv.explained_moves (h : Inv part exec p s) (hm : Moves part exec s s') :
    Linearizable (sequential part exec) p s'.history := by
  cases hm with
  | call hphase => exact History.always_concat.mpr ⟨h.explained, h.follows_of_phase hphase⟩
  | lock hphase hfree => exact h.explained
  | load hphase => exact h.explained
  | @store t op x hphase =>
      obtain rfl := h.fresh t op x hphase
      refine History.always_concat.mpr ⟨h.explained, h.follows_of_phase hphase, ?_⟩
      rw [← h.parts]
      rfl
  | unlock hphase => exact History.always_concat.mpr ⟨h.explained, h.follows_of_phase hphase⟩

lemma Inv.moves (h : Inv part exec p s) (hm : Moves part exec s s') : Inv part exec p s' where
  owner := h.owner_moves hm
  fresh := h.fresh_moves hm
  follows := h.follows_moves hm
  parts := h.parts_moves hm
  explained := h.explained_moves hm

/-- **Locks make the parts one object.**  In every run the parts are what the operations make of them in
the order in which they are done, and every call answers as it would with nobody else there. -/
theorem run_inv {ls : List (Label τ Op)} (hrun : run (step part exec) { parts := p } ls = some s) :
    Inv part exec p s :=
  run_invariant (fun _ _ _ h hstep => h.moves (moves hstep)) inv_new hrun

/-! ## No thread waits for ever -/

/-- The call of `t` can return, with the lock of its part free, while nobody else moves. -/
def Returns (part : Op → ι) (exec : Op → σ → Option σ × Res) (s : State τ ι σ Op Res) (t : τ) (i : ι) :
    Prop :=
  ∃ ls s', run (step part exec) s ls = some s' ∧ s'.lock i = none ∧
    s'.phase = Function.update s.phase t .idle

lemma Returns.of_step {m : State τ ι σ Op Res} {t : τ} {i : ι} {l : Label τ Op} {ph : Phase σ Op Res}
    (hm : step part exec s l = some m) (hphase : m.phase = Function.update s.phase t ph)
    (h : Returns part exec m t i) : Returns part exec s t i := by
  obtain ⟨ls, s', hrun, hlock, hs'⟩ := h
  refine ⟨l :: ls, s', run_cons_eq_some.mpr ⟨m, hm, hrun⟩, hlock, ?_⟩
  rw [hs', hphase, Function.update_idem]

/-- A thread that has a lock never waits for another. -/
lemma returns_of_inside {t : τ} {i : ι} (h : (s.phase t).inside part = some i) :
    Returns part exec s t i := by
  have hstored : ∀ (s : State τ ι σ Op Res) op res, s.phase t = .stored op res →
      Returns part exec s t (part op) := fun s op res hphase =>
    ⟨[.unlock t], _, by rw [run, step, hphase]; rfl, Function.update_self .., rfl⟩
  have hloaded : ∀ (s : State τ ι σ Op Res) op x, s.phase t = .loaded op x →
      Returns part exec s t (part op) := fun s op x hphase =>
    .of_step (l := .store t) (by rw [step, hphase]) rfl
      (hstored _ op (exec op x).2 (Function.update_self ..))
  cases hphase : s.phase t with
  | idle => simp [hphase, Phase.inside] at h
  | called op => simp [hphase, Phase.inside] at h
  | entered op =>
      obtain rfl : part op = i := by simpa [hphase, Phase.inside] using h
      exact .of_step (l := .load t) (by rw [step, hphase]) rfl
        (hloaded _ op (s.parts (part op)) (Function.update_self ..))
  | loaded op x =>
      obtain rfl : part op = i := by simpa [hphase, Phase.inside] using h
      exact hloaded s op x hphase
  | stored op res =>
      obtain rfl : part op = i := by simpa [hphase, Phase.inside] using h
      exact hstored s op res hphase

/-- A thread that waits for a free lock takes it, and returns. -/
lemma returns_of_called {t : τ} {op : Op} (hphase : s.phase t = .called op)
    (hfree : s.lock (part op) = none) : Returns part exec s t (part op) :=
  .of_step (l := .lock t) (by rw [step, hphase]; exact if_pos (by rw [hfree]; rfl)) rfl
    (returns_of_inside (by simp [Phase.inside]))

/-- **No thread waits for ever.**  A call holds one lock at a time, so whoever has it can return. -/
theorem Inv.exists_return (h : Inv part exec p s) (t : τ) :
    ∃ ls s', run (step part exec) s ls = some s' ∧ s'.phase t = .idle := by
  have hidle : ∀ {s : State τ ι σ Op Res} {i}, Returns part exec s t i →
      ∃ ls s', run (step part exec) s ls = some s' ∧ s'.phase t = .idle := by
    rintro s i ⟨ls, s', hrun, -, hs'⟩
    exact ⟨ls, s', hrun, by rw [hs', Function.update_self]⟩
  cases hphase : s.phase t with
  | idle => exact ⟨[], s, rfl, hphase⟩
  | called op =>
      cases hlock : s.lock (part op) with
      | none => exact hidle (returns_of_called hphase hlock)
      | some u =>
          -- `u` returns first
          have hinside := (h.owner u (part op)).mp hlock
          have hne : t ≠ u := by
            rintro rfl
            simp [hphase, Phase.inside] at hinside
          obtain ⟨ls, m, hrun, hfree, hm⟩ : Returns part exec s u (part op) :=
            returns_of_inside hinside
          have hcalled : m.phase t = .called op := by rw [hm, Function.update_of_ne hne, hphase]
          obtain ⟨ls', s', hrun', hs'⟩ := hidle (returns_of_called hcalled hfree)
          exact ⟨ls ++ ls', s', run_append.mpr ⟨m, hrun, hrun'⟩, hs'⟩
  | entered op => exact hidle (returns_of_inside (by rw [hphase]; rfl))
  | loaded op x => exact hidle (returns_of_inside (by rw [hphase]; rfl))
  | stored op res => exact hidle (returns_of_inside (by rw [hphase]; rfl))

end Locked
