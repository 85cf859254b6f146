import Luwes.AbiImpl.Process

/-!
# The handle pool never mixes requests

A handle that comes out of `dymHttpFilterHandlePool` has been through `reset`, and `reset` makes the same
of every handle that has neither plugin nor scheduler (`DymHttpFilterHandle.reset_eq`).  So what is left to
show is about owners: at any time the instance that was given an address last is the only one that
touches the object there, and once it is gone the object has neither plugin nor scheduler.

`replay` is what an instance would see of a handle of its own, straight from the pool's `New`.  In every
run each instance sees exactly that (`Isolated.fresh`).
-/

namespace Luwes.AbiImpl

open LabelledRun

variable {ω : Type}

/-! ## A handle of one's own -/

/-- The steps of one instance on one handle: what can be seen of each, and the handle at the end. -/
def DymHttpFilterHandle.replay (h : DymHttpFilterHandle ω) :
    List (Act ω) → List (List (DymHttpFilterHandle.Effect ω)) × DymHttpFilterHandle ω
  | [] => ([], h)
  | a :: as =>
    let r := (h.act a).2.replay as
    ((h.act a).1 :: r.1, r.2)

lemma DymHttpFilterHandle.replay_concat (h : DymHttpFilterHandle ω) (as : List (Act ω))
    (a : Act ω) :
    h.replay (as ++ [a]) =
      ((h.replay as).1 ++ [((h.replay as).2.act a).1], ((h.replay as).2.act a).2) := by
  induction as generalizing h with
  | nil => rfl
  | cons b bs ih => simp [DymHttpFilterHandle.replay, ih]

namespace Process

/-- What instance `i` did, oldest first. -/
def traceOf (p : Process ω) (i : ℕ) : List (Entry ω) := p.trace.filter (·.instance_ = i)

/-- The steps of instance `i`, replayed on a fresh handle. -/
def replayOf (p : Process ω) (i : ℕ) :
    List (List (DymHttpFilterHandle.Effect ω)) × DymHttpFilterHandle ω :=
  (DymHttpFilterHandle.fresh i).replay ((p.traceOf i).map Entry.act)

/-- The address of the handle that instance `i` has now. -/
def held (p : Process ω) (i : ℕ) : Option ℕ :=
  if (p.instances i).phase.holds then some (p.instances i).handle else none

/-- The pool never mixes requests. -/
structure Isolated (p : Process ω) : Prop where
  /-- A handle in the pool has no plugin and no scheduler, and the manager does not know it. -/
  pooled : ∀ a ∈ p.handles.free, ∃ h, p.handles.read a = some h ∧ h.plugin = none ∧
    h.scheduler = none ∧ p.pluginManager.search a = none
  /-- No two instances have one handle. -/
  distinct : ∀ i j a, p.held i = some a → p.held j = some a → i = j
  /-- `reset` has not panicked. -/
  alive : p.panicked = false
  /-- Every instance has seen what it would have seen with a fresh handle. -/
  fresh : ∀ i, (p.traceOf i).map Entry.effects = (p.replayOf i).1

/-! ## The invariant -/

/-- What is known of a handle from where its instance is. -/
def AtPhase (h : DymHttpFilterHandle ω) : Phase → Prop
  | .idle => False
  | .creating | .live => h.streamDestoried = false
  | .destroying => h.streamDestoried = true
  | .gone => h.streamDestoried = true ∧ h.plugin = none ∧ h.scheduler = none

lemma atPhase_act {p : Process ω} {i : ℕ} {h : DymHttpFilterHandle ω} {a : Act ω}
    (hallows : p.allows i a = true) (hphase : AtPhase h (p.instances i).phase) :
    AtPhase (h.act a).2 (nextPhase (p.instances i).phase h a) := by
  generalize hph : (p.instances i).phase = phase at hphase
  cases a with
  | created plugin =>
      obtain rfl : phase = .creating := by simpa [allows, hph] using hallows
      exact hphase
  | destroyReturned =>
      obtain rfl : phase = .destroying := by simpa [allows, hph] using hallows
      exact ⟨hphase, rfl, rfl⟩
  | call m =>
      have hholds : phase.holds = true := by
        cases m <;> simp_all [allows]
      show AtPhase (h.call m).2 phase
      have hflag := (h.call_frame m).2.1
      cases phase <;> simp_all [AtPhase, Phase.holds]
  | hook k =>
      by_cases hk : k = .destroy
      · subst hk
        cases hd : h.streamDestoried with
        | true =>
            simp only [nextPhase, DymHttpFilterHandle.act, DymHttpFilterHandle.hook, hd, if_true]
            exact hphase
        | false =>
            simp only [nextPhase, DymHttpFilterHandle.act, DymHttpFilterHandle.hook, hd]
            rfl
      · have hhooked : phase.hooked = true := by
          cases k <;> simp_all [allows]
        have hnext : nextPhase phase h (.hook k) = phase := by
          cases k <;> first | rfl | exact absurd rfl hk
        rw [hnext]
        show AtPhase (h.hook k).2 phase
        have hflag := (h.hook_frame k).2.1 hk
        cases phase <;> simp_all [AtPhase, Phase.hooked]

/-- Where a step can take an instance. -/
structure Advances (a : Act ω) (phase next : Phase) : Prop where
  started : next ≠ .idle
  gone : phase = .gone → next = .gone
  holds : a ≠ .destroyReturned → next.holds = phase.holds
  hooked : a ≠ .destroyReturned → phase.hooked = true → next.hooked = true

lemma advances_of_allows {p : Process ω} {i : ℕ} {h : DymHttpFilterHandle ω} {a : Act ω}
    (hallows : p.allows i a = true) (hphase : AtPhase h (p.instances i).phase) :
    Advances a (p.instances i).phase (nextPhase (p.instances i).phase h a) := by
  generalize hph : (p.instances i).phase = phase at hphase
  have hidle : phase ≠ .idle := by
    rintro rfl
    exact hphase
  have hsame : nextPhase phase h a = phase → Advances a phase (nextPhase phase h a) := fun heq => by
    rw [heq]
    exact ⟨hidle, id, fun _ => rfl, fun _ => id⟩
  cases a with
  | created plugin =>
      obtain rfl : phase = .creating := by simpa [allows, hph] using hallows
      exact ⟨by simp [nextPhase], by simp, fun _ => rfl, fun _ _ => rfl⟩
  | destroyReturned =>
      exact ⟨by simp [nextPhase], fun _ => rfl, fun hne => absurd rfl hne, fun hne => absurd rfl hne⟩
  | call m => exact hsame rfl
  | hook k =>
      by_cases hk : k = .destroy
      · subst hk
        cases hd : h.streamDestoried with
        | true => exact hsame (by simp [nextPhase, hd])
        | false =>
            have hnext : nextPhase phase h (.hook .destroy) = .destroying := by
              simp [nextPhase, hd]
            rw [hnext]
            cases phase <;> simp_all [AtPhase, allows, Phase.hooked]
            · exact ⟨by simp, by simp, fun _ => rfl, fun _ _ => rfl⟩
      · exact hsame (by cases k <;> first | rfl | exact absurd rfl hk)

/-- What a step of instance `i` on its handle `h` does. -/
structure Acted (p q : Process ω) (i : ℕ) (h : DymHttpFilterHandle ω) (a : Act ω) : Prop where
  own : p.owner (p.instances i).handle = some i
  replay : (p.replayOf i).2 = h
  self : q.instances i = nextInstance (p.instances i) h a
  ne : ∀ j, j ≠ i → q.instances j = p.instances j
  advances : Advances a (p.instances i).phase (q.instances i).phase
  atPhase : AtPhase (h.act a).2 (q.instances i).phase
  destroying : a = .destroyReturned → (p.instances i).phase = .destroying
  owner : q.owner = p.owner
  alive : q.panicked = p.panicked
  trace : q.trace = p.trace ++ [⟨i, a, (h.act a).1⟩]
  heap : q.handles.heap = (p.handles.write (p.instances i).handle (h.act a).2).heap
  kept : a ≠ .destroyReturned →
    q.handles = p.handles.write (p.instances i).handle (h.act a).2
  returned : a = .destroyReturned → q.handles =
    (p.handles.write (p.instances i).handle (h.act a).2).put (p.instances i).handle
  managed : ∀ b x, q.pluginManager.search b = some x →
    p.pluginManager.search b = some x ∧ (a = .destroyReturned → b ≠ (p.instances i).handle) ∨
      (∃ plugin, a = .created plugin) ∧ b = (p.instances i).handle

/-- What `on_http_filter_new` does up to `Create`: instance `i` has a fresh handle at `a`. -/
structure Acquired (p q : Process ω) (i a : ℕ) : Prop where
  idle : (p.instances i).phase = .idle
  phase : (q.instances i).phase = .creating
  handle : (q.instances i).handle = a
  ne : ∀ j, j ≠ i → q.instances j = p.instances j
  owned : q.handles.Owned (Function.update p.held i (some a))
  read_self : q.handles.read a = some (DymHttpFilterHandle.fresh i)
  read_ne : ∀ b x, b ≠ a → p.handles.read b = some x → q.handles.read b = some x
  free : q.handles.free ⊆ p.handles.free
  /-- Whoever had the address before. -/
  gone : ∀ j, p.owner a = some j → (p.instances j).phase = .gone
  owner : q.owner = Function.update p.owner a (some i)
  alive : q.panicked = p.panicked
  trace : q.trace = p.trace
  managed : q.pluginManager = p.pluginManager

/-- The instance that was given an address last owns what is there. -/
structure Sound (p : Process ω) : Prop where
  alive : p.panicked = false
  owned : p.handles.Owned p.held
  owner : ∀ i a, p.held i = some a → p.owner a = some i
  handle : ∀ a i, p.owner a = some i → (p.instances i).handle = a ∧
    p.handles.read a = some (p.replayOf i).2 ∧ AtPhase (p.replayOf i).2 (p.instances i).phase
  returned : ∀ a ∈ p.handles.free, ∃ i, p.owner a = some i ∧ (p.instances i).phase = .gone
  managed : ∀ a x, p.pluginManager.search a = some x →
    ∃ i, (p.instances i).phase.hooked = true ∧ (p.instances i).handle = a
  idle : ∀ i, (p.instances i).phase = .idle → p.traceOf i = []
  effects : ∀ i, (p.traceOf i).map Entry.effects = (p.replayOf i).1

lemma sound_new : ({} : Process ω).Sound where
  alive := rfl
  owned := ObjectPool.owned_empty
  owner i a h := by simp [held, Phase.holds] at h
  handle a i h := by simp at h
  returned a h := by simp at h
  managed a x h := by simp at h
  idle i _ := rfl
  effects i := rfl

lemma holds_of_hooked {phase : Phase} (h : phase.hooked = true) : phase.holds = true := by
  cases phase <;> simp_all [Phase.hooked, Phase.holds]

lemma Sound.isolated {p : Process ω} (hp : p.Sound) : p.Isolated where
  pooled a ha := by
    obtain ⟨i, hi, hgone⟩ := hp.returned a ha
    obtain ⟨-, hread, hphase⟩ := hp.handle a i hi
    rw [hgone] at hphase
    refine ⟨_, hread, hphase.2.1, hphase.2.2, ?_⟩
    rw [Option.eq_none_iff_forall_ne_some]
    intro x hx
    obtain ⟨j, hj, rfl⟩ := hp.managed a x hx
    exact hp.owned.busy j _ (by simp [held, holds_of_hooked hj]) ha
  distinct := hp.owned.inj
  alive := hp.alive
  fresh := hp.effects

namespace Sound

variable {p : Process ω}

lemma gone_of_get (hp : p.Sound) {choice : Option ℕ} {a : ℕ}
    {pool : ObjectPool (DymHttpFilterHandle ω)} (hget : p.handles.get {} choice = some (a, pool))
    {j : ℕ} (hj : p.owner a = some j) : (p.instances j).phase = .gone := by
  obtain ⟨-, hread, -⟩ := hp.handle a j hj
  rcases (ObjectPool.get_cases hget).2 with ⟨rfl, -⟩ | ⟨hfree, -⟩
  · simp [ObjectPool.read] at hread
  · obtain ⟨k, hk, hgone⟩ := hp.returned a hfree
    obtain rfl : k = j := Option.some.inj (hk.symm.trans hj)
    exact hgone

/-- `reset` does not panic, and gives a fresh handle. -/
lemma reset_of_get (hp : p.Sound) {choice : Option ℕ} {a : ℕ} {h : DymHttpFilterHandle ω}
    {pool : ObjectPool (DymHttpFilterHandle ω)} (hget : p.handles.get {} choice = some (a, pool))
    (hread : pool.read a = some h) (i : ℕ) : h.reset i = some (DymHttpFilterHandle.fresh i) := by
  rw [DymHttpFilterHandle.reset_eq]
  rcases (ObjectPool.get_cases hget).2 with ⟨-, hnew⟩ | ⟨hfree, hheap⟩
  · obtain rfl := Option.some.inj (hnew.symm.trans hread)
    rfl
  · obtain ⟨h', hread', hplugin, hscheduler, -⟩ := hp.isolated.pooled a hfree
    have heq : p.handles.read a = some h := by
      rw [ObjectPool.read, ← hheap]
      exact hread
    obtain rfl := Option.some.inj (hread'.symm.trans heq)
    simp [hplugin, hscheduler]

lemma ne_of_idle (hp : p.Sound) {i j a : ℕ} (hidle : (p.instances i).phase = .idle)
    (hj : p.owner a = some j) : j ≠ i := by
  rintro rfl
  have hphase := (hp.handle a j hj).2.2
  rw [hidle] at hphase
  exact hphase

lemma acquired (hp : p.Sound) {i stream a : ℕ} {choice : Option ℕ}
    {pool : ObjectPool (DymHttpFilterHandle ω)} (hidle : (p.instances i).phase = .idle)
    (hget : p.handles.get {} choice = some (a, pool)) :
    Acquired p { p.setInstance i { phase := .creating, handle := a, stream := stream } with
      handles := pool.write a (DymHttpFilterHandle.fresh i)
      owner := Function.update p.owner a (some i) } i a := by
  obtain ⟨howned, h, hread⟩ := hp.owned.get (i := i) hget
  exact
    { idle := hidle
      phase := by simp [setInstance]
      handle := by simp [setInstance]
      ne := fun j hj => Function.update_of_ne hj _ _
      owned := howned.write a _
      read_self := ObjectPool.read_write_self hread
      read_ne := fun b x hb hx => by
        rw [ObjectPool.read_write_ne hb]
        exact ObjectPool.read_get hget hx
      free := (ObjectPool.get_cases hget).1.subset
      gone := fun j => hp.gone_of_get hget
      owner := rfl
      alive := rfl
      trace := rfl
      managed := rfl }

lemma owner_of_allows (hp : p.Sound) {i : ℕ} {a : Act ω} (hallows : p.allows i a = true) :
    p.owner (p.instances i).handle = some i := by
  have hholds : (p.instances i).phase.holds = true → p.owner (p.instances i).handle = some i :=
    fun h => hp.owner i _ (by simp [held, h])
  cases a with
  | created plugin => exact hholds (by simp_all [allows, Phase.holds])
  | destroyReturned => exact hholds (by simp_all [allows, Phase.holds])
  | call m => exact hholds (by cases m <;> simp_all [allows])
  | hook k =>
      by_cases hk : k = .destroy
      · subst hk
        rcases (by simpa [allows] using hallows : (p.instances i).phase.hooked = true ∨
          (p.instances i).phase = .gone ∧ p.owner (p.instances i).handle = some i) with h | h
        · exact hholds (holds_of_hooked h)
        · exact h.2
      · exact hholds (holds_of_hooked (by cases k <;> simp_all [allows]))

lemma acted (hp : p.Sound) {i : ℕ} {a : Act ω} {h : DymHttpFilterHandle ω}
    (hallows : p.allows i a = true) (hread : p.handles.read (p.instances i).handle = some h) :
    Acted p ((p.record i h a).around i h a) i h a := by
  have hown := hp.owner_of_allows hallows
  obtain ⟨-, hread', hphase⟩ := hp.handle _ i hown
  have hh : (p.replayOf i).2 = h := Option.some.inj (hread'.symm.trans hread)
  rw [hh] at hphase
  obtain ⟨htrace, howner, halive, hheap⟩ := around_rest (p.record i h a) i h a
  have hinst := around_instances (p.record i h a) i h a
  have hself : ((p.record i h a).around i h a).instances i = nextInstance (p.instances i) h a := by
    rw [hinst, Function.update_self]
    rfl
  refine ⟨hown, hh, hself, fun j hj => ?_, ?_, ?_, fun ha => ?_, howner, halive, htrace, hheap,
    fun ha => around_handles (p.record i h a) i h ha, ?_,
    fun b x => around_pluginManager (p.record i h a) i h a⟩
  · rw [hinst, Function.update_of_ne hj]
    rfl
  · rw [hself]
    exact advances_of_allows hallows hphase
  · rw [hself]
    exact atPhase_act hallows hphase
  · subst ha
    simpa [allows] using hallows
  · rintro rfl
    rfl

end Sound

namespace Acquired

variable {p q : Process ω} {i a : ℕ}

lemma held (hq : Acquired p q i a) : q.held = Function.update p.held i (some a) := by
  funext j
  by_cases hj : j = i
  · subst hj
    simp [Process.held, hq.phase, hq.handle, Phase.holds]
  · simp [Process.held, hq.ne j hj, hj]

lemma replayOf (hq : Acquired p q i a) (j : ℕ) :
    q.traceOf j = p.traceOf j ∧ q.replayOf j = p.replayOf j := by
  have htrace : q.traceOf j = p.traceOf j := by
    rw [traceOf, hq.trace, traceOf]
  exact ⟨htrace, by rw [Process.replayOf, htrace, Process.replayOf]⟩

lemma ne_of_owner (hq : Acquired p q i a) (hp : p.Sound) {b j : ℕ} (hb : b ≠ a)
    (hj : q.owner b = some j) : p.owner b = some j ∧ j ≠ i := by
  have hj : p.owner b = some j := by simpa [hq.owner, hb] using hj
  exact ⟨hj, hp.ne_of_idle hq.idle hj⟩

/-- **`on_http_filter_new`** up to `Create` keeps the invariant. -/
lemma sound (hq : Acquired p q i a) (hp : p.Sound) : q.Sound where
  alive := hq.alive.trans hp.alive
  owned := by
    rw [hq.held]
    exact hq.owned
  owner j b hj := by
    rw [hq.held] at hj
    by_cases hji : j = i
    · subst hji
      obtain rfl : a = b := by simpa using hj
      simp [hq.owner]
    · have hjb : p.held j = some b := by simpa [hji] using hj
      have hba : b ≠ a := by
        rintro rfl
        have hphase := hq.gone j (hp.owner j b hjb)
        simp [Process.held, hphase, Phase.holds] at hjb
      rw [hq.owner, Function.update_of_ne hba]
      exact hp.owner j b hjb
  handle b j hj := by
    rw [(hq.replayOf j).2]
    by_cases hba : b = a
    · subst hba
      obtain rfl : i = j := by simpa [hq.owner] using hj
      have hreplay : p.replayOf i = ([], DymHttpFilterHandle.fresh i) := by
        rw [Process.replayOf, hp.idle i hq.idle]
        rfl
      rw [hreplay, hq.phase]
      exact ⟨hq.handle, hq.read_self, rfl⟩
    · obtain ⟨hj, hji⟩ := hq.ne_of_owner hp hba hj
      obtain ⟨hhandle, hread, hphase⟩ := hp.handle b j hj
      rw [hq.ne j hji]
      exact ⟨hhandle, hq.read_ne b _ hba hread, hphase⟩
  returned b hb := by
    have hba : b ≠ a := by
      rintro rfl
      exact hq.owned.busy i b (Function.update_self ..) hb
    obtain ⟨j, hj, hphase⟩ := hp.returned b (hq.free hb)
    refine ⟨j, by simpa [hq.owner, hba] using hj, ?_⟩
    rw [hq.ne j (hp.ne_of_idle hq.idle hj)]
    exact hphase
  managed b x hx := by
    obtain ⟨j, hhooked, hhandle⟩ := hp.managed b x (hq.managed ▸ hx)
    have hji : j ≠ i := by
      rintro rfl
      simp [hq.idle, Phase.hooked] at hhooked
    refine ⟨j, ?_⟩
    rw [hq.ne j hji]
    exact ⟨hhooked, hhandle⟩
  idle j hj := by
    have hji : j ≠ i := by
      rintro rfl
      simp [hq.phase] at hj
    rw [(hq.replayOf j).1]
    exact hp.idle j (hq.ne j hji ▸ hj)
  effects j := by
    rw [(hq.replayOf j).1, (hq.replayOf j).2]
    exact hp.effects j

end Acquired

namespace Acted

variable {p q : Process ω} {i : ℕ} {h : DymHttpFilterHandle ω} {a : Act ω}

lemma held_kept (hq : Acted p q i h a) (ha : a ≠ .destroyReturned) : q.held = p.held := by
  funext j
  by_cases hj : j = i
  · subst hj
    simp only [held, hq.advances.holds ha]
    rw [hq.self]
    rfl
  · simp only [held, hq.ne j hj]

lemma held_returned (hq : Acted p q i h a) (ha : a = .destroyReturned) :
    q.held = Function.update p.held i none := by
  subst ha
  funext j
  by_cases hj : j = i
  · subst hj
    simp [held, hq.self, nextInstance, nextPhase, Phase.holds]
  · simp [held, hq.ne j hj, hj]

lemma held_of_held (hq : Acted p q i h a) {j b : ℕ} (hj : q.held j = some b) :
    p.held j = some b := by
  by_cases ha : a = .destroyReturned
  · rw [hq.held_returned ha] at hj
    by_cases hji : j = i
    · simp [hji] at hj
    · simpa [hji] using hj
  · rwa [hq.held_kept ha] at hj

lemma read_eq (hq : Acted p q i h a) (b : ℕ) :
    q.handles.read b = (p.handles.write (p.instances i).handle (h.act a).2).read b := by
  rw [ObjectPool.read, hq.heap]
  rfl

/-- The instance that moves sees the step on the handle it has replayed so far. -/
lemma replayOf_self (hq : Acted p q i h a) :
    q.traceOf i = p.traceOf i ++ [⟨i, a, (h.act a).1⟩] ∧
      q.replayOf i = ((p.replayOf i).1 ++ [(h.act a).1], (h.act a).2) := by
  have htrace : q.traceOf i = p.traceOf i ++ [⟨i, a, (h.act a).1⟩] := by
    simp [traceOf, hq.trace]
  refine ⟨htrace, ?_⟩
  rw [replayOf, htrace, List.map_append, List.map_singleton,
    DymHttpFilterHandle.replay_concat, ← hq.replay]
  rfl

lemma replayOf_ne (hq : Acted p q i h a) {j : ℕ} (hj : j ≠ i) :
    q.traceOf j = p.traceOf j ∧ q.replayOf j = p.replayOf j := by
  have htrace : q.traceOf j = p.traceOf j := by
    simp [traceOf, hq.trace, Ne.symm hj]
  exact ⟨htrace, by rw [replayOf, htrace, replayOf]⟩

lemma owned (hq : Acted p q i h a) (hp : p.Sound) : q.handles.Owned q.held := by
  by_cases ha : a = .destroyReturned
  · have hheld : p.held i = some (p.instances i).handle := by
      simp [held, hq.destroying ha, Phase.holds]
    rw [hq.returned ha, hq.held_returned ha]
    exact (hp.owned.write _ _).put hheld
  · rw [hq.kept ha, hq.held_kept ha]
    exact hp.owned.write _ _

lemma handle (hq : Acted p q i h a) (hp : p.Sound) {b j : ℕ} (hj : q.owner b = some j) :
    (q.instances j).handle = b ∧ q.handles.read b = some (q.replayOf j).2 ∧
      AtPhase (q.replayOf j).2 (q.instances j).phase := by
  rw [hq.owner] at hj
  obtain ⟨hhandle, hread, hphase⟩ := hp.handle b j hj
  by_cases hji : j = i
  · subst hji
    have hsame : (q.instances j).handle = (p.instances j).handle := by
      rw [hq.self]
      rfl
    rw [hq.replayOf_self.2, hq.read_eq, hsame, hhandle]
    exact ⟨rfl, ObjectPool.read_write_self hread, hq.atPhase⟩
  · have hne : b ≠ (p.instances i).handle := by
      rintro rfl
      exact hji (Option.some.inj (hj.symm.trans hq.own))
    rw [(hq.replayOf_ne hji).2, hq.ne j hji, hq.read_eq, ObjectPool.read_write_ne hne]
    exact ⟨hhandle, hread, hphase⟩

lemma freed (hq : Acted p q i h a) (hp : p.Sound) {b : ℕ} (hb : b ∈ q.handles.free) :
    ∃ j, q.owner b = some j ∧ (q.instances j).phase = .gone := by
  rw [hq.owner]
  by_cases hold : b ∈ p.handles.free
  · obtain ⟨j, hj, hgone⟩ := hp.returned b hold
    refine ⟨j, hj, ?_⟩
    by_cases hji : j = i
    · subst hji
      exact hq.advances.gone hgone
    · rw [hq.ne j hji]
      exact hgone
  · have ha : a = .destroyReturned := by
      by_contra ha
      rw [hq.kept ha] at hb
      exact hold hb
    rw [hq.returned ha] at hb
    have hbi : b = (p.instances i).handle := (List.mem_cons.mp hb).resolve_right hold
    refine ⟨i, hbi ▸ hq.own, ?_⟩
    rw [hq.self, ha]
    rfl

lemma hooked (hq : Acted p q i h a) (hp : p.Sound) {b x : ℕ}
    (hb : q.pluginManager.search b = some x) :
    ∃ j, (q.instances j).phase.hooked = true ∧ (q.instances j).handle = b := by
  rcases hq.managed b x hb with ⟨hold, hne⟩ | ⟨⟨plugin, rfl⟩, rfl⟩
  · obtain ⟨j, hj, rfl⟩ := hp.managed b x hold
    refine ⟨j, ?_⟩
    by_cases hji : j = i
    · subst hji
      refine ⟨hq.advances.hooked (fun ha => hne ha rfl) hj, ?_⟩
      rw [hq.self]
      rfl
    · rw [hq.ne j hji]
      exact ⟨hj, rfl⟩
  · refine ⟨i, ?_⟩
    rw [hq.self]
    exact ⟨rfl, rfl⟩

/-- **A step on a handle** keeps the invariant. -/
lemma sound (hq : Acted p q i h a) (hp : p.Sound) : q.Sound where
  alive := hq.alive.trans hp.alive
  owned := hq.owned hp
  owner j b hj := by
    rw [hq.owner]
    exact hp.owner j b (hq.held_of_held hj)
  handle b j := hq.handle hp
  returned b := hq.freed hp
  managed b x := hq.hooked hp
  idle j hj := by
    have hji : j ≠ i := by
      rintro rfl
      exact hq.advances.started hj
    rw [(hq.replayOf_ne hji).1]
    exact hp.idle j (hq.ne j hji ▸ hj)
  effects j := by
    by_cases hji : j = i
    · subst hji
      rw [hq.replayOf_self.1, hq.replayOf_self.2, List.map_append, hp.effects j]
      rfl
    · rw [(hq.replayOf_ne hji).1, (hq.replayOf_ne hji).2]
      exact hp.effects j

end Acted

/-- **One step** keeps the invariant. -/
lemma Sound.step {p p' : Process ω} {l : Label ω} (hp : p.Sound) (h : p.step l = some p') :
    p'.Sound := by
  cases l with
  | new i stream choice =>
      simp only [Process.step] at h
      split_ifs at h with hcond
      obtain ⟨⟨a, pool⟩, hget, h⟩ := Option.bind_eq_some_iff.mp h
      obtain ⟨x, hread, rfl⟩ := Option.map_eq_some_iff.mp h
      have hidle : (p.instances i).phase = .idle := by
        simp_all
      rw [Process.acquire, hp.reset_of_get hget hread i]
      exact (hp.acquired hidle hget).sound hp
  | act i a =>
      simp only [Process.step] at h
      split_ifs at h with hcond
      obtain ⟨x, hread, rfl⟩ := Option.map_eq_some_iff.mp h
      exact (hp.acted (by simp_all) hread).sound hp

/-! ## Whole runs -/

/-- **The pool never mixes requests**, in any run of the process. -/
theorem pool_isolated (ls : List (Label ω)) (p : Process ω)
    (hrun : run Process.step {} ls = some p) : p.Isolated :=
  (run_invariant (fun _ _ _ hp h => hp.step h) sound_new hrun).isolated

/-- A stream that leaves much behind: a local reply, a callout, a scheduler, shared data.  Its handle
is used again, for a filter that is answered by the host. -/
def reused : List (Label String) :=
  [.new 0 0 none, .act 0 (.created (some "auth")), .act 0 (.call (.getScheduler 5)),
    .act 0 (.call (.httpCallout .success 7 "reply")),
    .act 0 (.call (.setData (ascii "user") (some "alice") 64)), .act 0 (.call .sendLocalResponse),
    .act 0 (.hook (.responseHeaders true)), .act 0 (.hook .streamComplete),
    .act 0 (.hook .destroy), .act 0 (.call (.getScheduler 6)), .act 0 .destroyReturned,
    .act 0 (.hook .destroy), .new 1 1 (some 0), .act 1 (.created (some "audit")),
    .act 1 (.hook (.responseHeaders true)), .act 1 (.hook (.hostEvent 7 (.calloutDone .reset [] [])))]

/-- The process after it. -/
def reusedProcess : Process String := (run Process.step {} reused).getD {}

theorem pool_isolated_reused :
    (reusedProcess.instances 1).handle = (reusedProcess.instances 0).handle ∧
      reusedProcess.Isolated :=
  ⟨by decide, pool_isolated reused reusedProcess rfl⟩

end Process

end Luwes.AbiImpl
