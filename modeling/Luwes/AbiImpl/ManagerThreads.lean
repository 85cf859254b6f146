import Luwes.AbiImpl.Manager
import Luwes.Lib.Locked
import Mathlib.Data.List.FinRange

/-!
# Managers used by many threads (`manager`, `abi_impl/internal.go`)

The worker threads of the host call `record`, `search` and `remove` on the same managers.  A call takes
the mutex of the shard of its address, looks at or writes to the map of the shard, and unlocks the mutex
when it returns.  A map that is nil cannot be written to, so `newManager` makes all of them.

The shards and their mutexes are an object in parts behind locks (`Luwes.Lib.Locked`), so the history of
any number of threads is explained by calls that are done one after the other, each at a moment between
its beginning and its return.  These calls are the operations of `Manager` (`refines_manager`), and those
are the operations of one map without shards (`refines_plainMap`).  A call has one mutex at a time, so
none waits for ever (`call_returns`).
-/

namespace Luwes.AbiImpl

open LabelledRun Locked

variable {α : Type}

/-- The map of a shard; `none` is a nil map. -/
abbrev Shard (α : Type) : Type := Option (ℕ → Option α)

/-- A call of a method, with the address of its argument. -/
inductive ManagerCall (α : Type)
  | record (pointer : ℕ) (item : α)
  | search (key : ℕ)
  | remove (itemPtr : ℕ)

/-- What a call returns, or that it panics. -/
inductive ManagerAnswer (α : Type)
  | pointer (pointer : ℕ)
  | item (o : Option α)
  | removed
  | panicked

/-! ## What is done under the mutex -/

namespace Shard

/-- `record`: the new map, and what is returned.  A write to a nil map panics. -/
def record (m : Shard α) (pointer : ℕ) (item : α) : Option (Shard α) × ManagerAnswer α :=
  match m with
  | none => (none, .panicked)
  | some m => (some (some (Function.update m pointer (some item))), .pointer pointer)

/-- `search`: a key that is absent, or a nil map, gives nil. -/
def search (m : Shard α) (key : ℕ) : Option (Shard α) × ManagerAnswer α :=
  (none, .item (m.bind fun m => m key))

/-- `remove`: there is nothing to delete from a nil map. -/
def remove (m : Shard α) (itemPtr : ℕ) : Option (Shard α) × ManagerAnswer α :=
  match m with
  | none => (none, .removed)
  | some m => (some (some (Function.update m itemPtr none)), .removed)

end Shard

namespace ManagerCall

/-- The shard a call works on. -/
def index : ManagerCall α → Fin numManagerShards
  | .record pointer _ => Manager.index pointer
  | .search key => Manager.index key
  | .remove itemPtr => Manager.index itemPtr

/-- What a call does with the map of its shard. -/
def exec : ManagerCall α → Shard α → Option (Shard α) × ManagerAnswer α
  | .record pointer item, m => m.record pointer item
  | .search key, m => m.search key
  | .remove itemPtr, m => m.remove itemPtr

/-- The call writes under `key`. -/
def writes (key : ℕ) : ManagerCall α → Prop
  | .record pointer _ | .remove pointer => pointer = key
  | .search _ => False

end ManagerCall

/-- The maps of `newManager`: they are nil before the loop. -/
def newManager : Fin numManagerShards → Shard α :=
  (List.finRange numManagerShards).foldl
    (fun data i => Function.update data i (some fun _ => none)) fun _ => none

/-- A manager with its mutexes, and the threads that use it. -/
abbrev ManagerThreads (τ α : Type) : Type :=
  State τ (Fin numManagerShards) (Shard α) (ManagerCall α) (ManagerAnswer α)

namespace ManagerThreads

/-- A manager that nobody has used. -/
def new {τ : Type} : ManagerThreads τ α := { parts := newManager }

/-- One step of a thread. -/
def step {τ : Type} [DecidableEq τ] :
    ManagerThreads τ α → Label τ (ManagerCall α) → Option (ManagerThreads τ α) :=
  Locked.step ManagerCall.index ManagerCall.exec

/-! ## One operation after the other -/

/-- A call as one step of `Manager`. -/
def ofManager (m : Manager α) : ManagerCall α → Manager α × ManagerAnswer α
  | .record pointer item => (m.record pointer item, .pointer pointer)
  | .search key => (m, .item (m.search key))
  | .remove itemPtr => (m.remove itemPtr, .removed)

/-- A call on one map without shards. -/
def plainMap (m : ℕ → Option α) : ManagerCall α → (ℕ → Option α) × ManagerAnswer α
  | .record pointer item => (Function.update m pointer (some item), .pointer pointer)
  | .search key => (m, .item (m key))
  | .remove itemPtr => (Function.update m itemPtr none, .removed)

/-- The item was recorded under `key`, and since then nothing was recorded there or removed. -/
def LastRecorded (calls : List (ManagerCall α)) (key : ℕ) (item : α) : Prop :=
  History.Since (fun c => c = .record key item) (ManagerCall.writes key) calls

lemma newManager_eq : (newManager : Fin numManagerShards → Shard α) = some ∘ ({} : Manager α).data := by
  have hfold : ∀ (is : List (Fin numManagerShards)) (data : Fin numManagerShards → Shard α) i,
      is.foldl (fun data i => Function.update data i (some fun _ => none)) data i =
        if i ∈ is then some fun _ => none else data i := by
    intro is
    induction is with
    | nil => simp
    | cons j is ih =>
        intro data i
        rw [List.foldl_cons, ih]
        by_cases hi : i = j
        · simp [hi]
        · simp [hi]
  funext i
  rw [newManager, hfold, if_pos (List.mem_finRange i)]
  rfl

/-- Maps that have been made are the data of a manager, and stay so. -/
lemma sequential_ofManager (data : Fin numManagerShards → Shard α) (m : Manager α) (c : ManagerCall α)
    (h : data = some ∘ m.data) :
    (sequential ManagerCall.index ManagerCall.exec data c).1 = some ∘ (ofManager m c).1.data ∧
      (sequential ManagerCall.index ManagerCall.exec data c).2 = (ofManager m c).2 := by
  subst h
  cases c with
  | record pointer item => exact ⟨(Function.comp_update ..).symm, rfl⟩
  | search key => exact ⟨Function.update_eq_self .., rfl⟩
  | remove itemPtr => exact ⟨(Function.comp_update ..).symm, rfl⟩

lemma plainMap_empty : ({} : Manager α).Placed ∧ ({} : Manager α).search = fun _ => none :=
  ⟨Manager.placed_empty, funext Manager.search_empty⟩

/-- A manager whose addresses are in their shards is read like one map, and stays so. -/
lemma ofManager_plainMap (m : Manager α) (f : ℕ → Option α) (c : ManagerCall α)
    (h : m.Placed ∧ m.search = f) :
    ((ofManager m c).1.Placed ∧ (ofManager m c).1.search = (plainMap f c).1) ∧
      (ofManager m c).2 = (plainMap f c).2 := by
  obtain ⟨hm, rfl⟩ := h
  cases c with
  | record pointer item =>
      refine ⟨⟨hm.update pointer (some item), ?_⟩, rfl⟩
      funext key
      exact (Manager.search_record ..).trans (Function.update_apply ..).symm
  | search key => exact ⟨⟨hm, rfl⟩, rfl⟩
  | remove itemPtr =>
      refine ⟨⟨hm.update itemPtr none, ?_⟩, rfl⟩
      funext key
      exact (Manager.search_remove ..).trans (Function.update_apply ..).symm

/-! ## What one map holds -/

lemma plainMap_eq_some (f : ℕ → Option α) (c : ManagerCall α) (key : ℕ) (item : α) :
    (plainMap f c).1 key = some item ↔
      c = .record key item ∨ f key = some item ∧ ¬ c.writes key := by
  cases c with
  | record pointer x =>
      by_cases hkey : pointer = key
      · simp [plainMap, ManagerCall.writes, hkey]
      · simp [plainMap, ManagerCall.writes, hkey, Ne.symm hkey]
  | search k => simp [plainMap, ManagerCall.writes]
  | remove pointer =>
      by_cases hkey : pointer = key
      · simp [plainMap, ManagerCall.writes, hkey]
      · simp [plainMap, ManagerCall.writes, hkey, Ne.symm hkey]

/-- A map holds what was last recorded and not removed since. -/
theorem after_plainMap (calls : List (ManagerCall α)) (key : ℕ) (item : α) :
    after plainMap (fun _ => none) calls key = some item ↔ LastRecorded calls key item := by
  induction calls using List.reverseRecOn with
  | nil => simp [LastRecorded]
  | append_singleton calls c ih =>
      rw [after_concat, plainMap_eq_some, ih, LastRecorded, LastRecorded, History.since_concat]

/-! ## Whole runs -/

/-- A search that returns has found, at a moment since it was called, the item that was then the last
to be recorded under its key and not removed since, or nil if there was none. -/
def SearchesRight {τ : Type} (past : List (Event τ (ManagerCall α) (ManagerAnswer α))) :
    Event τ (ManagerCall α) (ManagerAnswer α) → Prop
  | .ret t (.search key) answer =>
    ∃ before during o, past = before ++ .effect t (.search key) answer :: during ∧
      (∀ e ∈ during, e.thread ≠ t) ∧ answer = .item o ∧
      ∀ item, o = some item ↔ LastRecorded (done before) key item
  | _ => True

lemma searchesRight_of_linearizable {τ : Type} [DecidableEq τ]
    {h : List (Event τ (ManagerCall α) (ManagerAnswer α))}
    (hlin : Linearizable plainMap (fun _ => none) h) : History.Always SearchesRight h := by
  intro past e post heq
  cases e with
  | ret t c answer =>
      cases c with
      | search key =>
          have hlast : lastOf t past = some (.effect t (.search key) answer) := hlin past _ post heq
          obtain ⟨before, during, rfl, hduring⟩ := eq_append_of_lastOf hlast
          obtain ⟨-, rfl⟩ := hlin before (.effect t (.search key) answer)
            (during ++ .ret t (.search key) answer :: post) (by simpa using heq)
          exact ⟨before, during, _, rfl, hduring, rfl, after_plainMap (done before) key⟩
      | record pointer item => trivial
      | remove itemPtr => trivial
  | call t c => trivial
  | effect t c answer => trivial

section Runs

variable {τ : Type} [DecidableEq τ] {ls : List (Label τ (ManagerCall α))} {s : ManagerThreads τ α}

/-- **Every run is a run of `Manager`.**  The calls have their effects in some order, each between its
beginning and its return, as operations of `Manager`. -/
theorem refines_manager (hrun : run step new ls = some s) :
    s.parts = some ∘ (after ofManager {} (done s.history)).data ∧
      Linearizable ofManager {} s.history := by
  have hinv := run_inv hrun
  refine ⟨?_, hinv.explained.of_simulation sequential_ofManager newManager_eq⟩
  rw [hinv.parts]
  exact after_simulation sequential_ofManager newManager_eq (done s.history)

lemma after_ofManager (calls : List (ManagerCall α)) :
    (after ofManager {} calls).Placed ∧
      (after ofManager {} calls).search = after plainMap (fun _ => none) calls :=
  after_simulation ofManager_plainMap plainMap_empty calls

/-- **A manager is one map.**  Whatever the threads do, an address is in the shard of its remainder, the
calls have their effects in some order, each between its beginning and its return, as operations of one
map, and what a search returns is what was last recorded under its key and not removed since. -/
theorem refines_plainMap (hrun : run step new ls = some s) :
    (∀ i m key item, s.parts i = some m → m key = some item → key % numManagerShards = i) ∧
      Linearizable plainMap (fun _ => none) s.history ∧ History.Always SearchesRight s.history := by
  obtain ⟨hparts, hlin⟩ := refines_manager hrun
  have hmap : Linearizable plainMap (fun _ => none) s.history :=
    hlin.of_simulation ofManager_plainMap plainMap_empty
  refine ⟨fun i m key item hm hitem => ?_, hmap, searchesRight_of_linearizable hmap⟩
  obtain rfl : (after ofManager {} (done s.history)).data i = m := by
    simpa [hparts] using hm
  exact (after_ofManager _).1 i key item hitem

/-- Two threads use the shard of 1 and 33 at the same time. -/
def oneShard : List (Label Bool (ManagerCall ℕ)) :=
  [.call true (.record 1 10), .call false (.record 33 20), .lock false, .load false, .store false,
    .unlock false, .lock true, .call false (.search 33), .load true, .store true, .unlock true,
    .lock false, .load false, .store false, .unlock false]

/-- The thread that has the mutex is done first, and neither loses what the other records. -/
theorem refines_plainMap_oneShard :
    ∃ s : ManagerThreads Bool ℕ, run step new oneShard = some s ∧
      s.history.getLast? = some (.ret false (.search 33) (.item (some 20))) ∧
      (∀ i m key item, s.parts i = some m → m key = some item → key % numManagerShards = i) ∧
        Linearizable plainMap (fun _ => none) s.history ∧
        History.Always SearchesRight s.history := by
  have hrun : run step (new : ManagerThreads Bool ℕ) oneShard = some _ := rfl
  exact ⟨_, hrun, rfl, refines_plainMap hrun⟩

/-- **No call waits for ever.**  From every state that a run reaches, each thread can return. -/
theorem call_returns (hrun : run step new ls = some s) (t : τ) :
    ∃ ls' s', run step s ls' = some s' ∧ s'.phase t = .idle :=
  (run_inv hrun).exists_return t

end Runs

end ManagerThreads

end Luwes.AbiImpl
