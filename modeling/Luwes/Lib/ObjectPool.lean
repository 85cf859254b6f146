import Mathlib.Data.List.Basic
import Mathlib.Data.List.Nodup
import Mathlib.Logic.Function.Basic

/-!
# Pools of reusable objects

A pool is a heap of objects and the list of those that are free.  An object is named by its address,
its position in the heap, and is never deallocated: `get` hands out a free object as it is, or makes
a new one, and `put` makes an object free again.  Nothing here keeps a former owner from going on
using an address; that is what results about a pool are about.

`Owned p own` says that the pool and the owners agree: `own i` is the address owner `i` holds.  No
two owners hold one address, and no held address is free.  It is kept by `get`, `put` and `write`,
and from it follows the frame rule the users of a pool need (`Owned.ne` with `read_write_ne`): a
write at the address of one owner leaves the object of every other owner as it is.
-/

/-- A heap of objects together with the addresses that are free. -/
structure ObjectPool (α : Type*) where
  heap : List α := []
  free : List ℕ := []

namespace ObjectPool

variable {α ι : Type*} {p p' : ObjectPool α} {own : ι → Option ℕ}

/-- The object at an address. -/
def read (p : ObjectPool α) (a : ℕ) : Option α := p.heap[a]?

/-- Replace the object at an address. -/
def write (p : ObjectPool α) (a : ℕ) (x : α) : ObjectPool α := { p with heap := p.heap.set a x }

/-- Take the `i`-th free object, or a new one.  Which of them a pool hands out is not specified. -/
def get (p : ObjectPool α) (new : α) : Option ℕ → Option (ℕ × ObjectPool α)
  | none => some (p.heap.length, { p with heap := p.heap ++ [new] })
  | some i => (p.free[i]?).map fun a => (a, { p with free := p.free.eraseIdx i })

/-- Give an object back. -/
def put (p : ObjectPool α) (a : ℕ) : ObjectPool α := { p with free := a :: p.free }

/-! ## Reading after an operation -/

@[simp] lemma read_write_ne {a b : ℕ} (h : b ≠ a) (x : α) : (p.write a x).read b = p.read b := by
  simp [read, write, List.getElem?_set_ne (Ne.symm h)]

@[simp] lemma read_put (a b : ℕ) : (p.put a).read b = p.read b := rfl

lemma read_write_self {a : ℕ} {x y : α} (h : p.read a = some y) :
    (p.write a x).read a = some x := by
  obtain ⟨hlt, -⟩ := List.getElem?_eq_some_iff.mp h
  simp [read, write, hlt]

@[simp] lemma write_write (p : ObjectPool α) (a : ℕ) (x y : α) :
    (p.write a x).write a y = p.write a y := by
  simp [write]

/-- Taking an object changes none that is there. -/
lemma read_get {new x : α} {c : Option ℕ} {a b : ℕ} (h : p.get new c = some (a, p'))
    (hb : p.read b = some x) : p'.read b = some x := by
  cases c with
  | none =>
      obtain ⟨rfl, rfl⟩ : p.heap.length = a ∧ _ = p' := by simpa [get] using h
      obtain ⟨hlt, -⟩ := List.getElem?_eq_some_iff.mp hb
      rw [read, List.getElem?_append_left hlt]
      exact hb
  | some i =>
      obtain ⟨a', -, rfl, rfl⟩ : ∃ a', p.free[i]? = some a' ∧ a' = a ∧ _ = p' := by
        simpa [get] using h
      exact hb

/-- An object that has been taken is a new one, or was free; nothing becomes free. -/
lemma get_cases {new : α} {c : Option ℕ} {a : ℕ} (h : p.get new c = some (a, p')) :
    p'.free.Sublist p.free ∧
      (a = p.heap.length ∧ p'.read a = some new ∨ a ∈ p.free ∧ p'.heap = p.heap) := by
  cases c with
  | none =>
      obtain ⟨rfl, rfl⟩ : p.heap.length = a ∧ _ = p' := by simpa [get] using h
      exact ⟨List.Sublist.refl _, .inl ⟨rfl, by simp [read]⟩⟩
  | some i =>
      obtain ⟨a', ha', rfl, rfl⟩ : ∃ a', p.free[i]? = some a' ∧ a' = a ∧ _ = p' := by
        simpa [get] using h
      exact ⟨List.eraseIdx_sublist _ _, .inr ⟨List.mem_of_getElem? ha', rfl⟩⟩

/-- Whatever can be read after an object has been taken is that object, or was there. -/
lemma read_of_get {new x : α} {c : Option ℕ} {a b : ℕ} (h : p.get new c = some (a, p'))
    (hb : p'.read b = some x) (hne : b ≠ a) : p.read b = some x := by
  cases c with
  | none =>
      obtain ⟨rfl, rfl⟩ : p.heap.length = a ∧ _ = p' := by simpa [get] using h
      obtain ⟨hlt, -⟩ := List.getElem?_eq_some_iff.mp hb
      rw [List.length_append, List.length_singleton] at hlt
      rwa [read, List.getElem?_append_left (by omega)] at hb
  | some i =>
      obtain ⟨a', -, rfl, rfl⟩ : ∃ a', p.free[i]? = some a' ∧ a' = a ∧ _ = p' := by
        simpa [get] using h
      exact hb

/-! ## Owners -/

/-- The owners hold distinct objects, none of them free. -/
structure Owned (p : ObjectPool α) (own : ι → Option ℕ) : Prop where
  lt : ∀ i a, own i = some a → a < p.heap.length
  busy : ∀ i a, own i = some a → a ∉ p.free
  inj : ∀ i j a, own i = some a → own j = some a → i = j
  freeLt : ∀ a ∈ p.free, a < p.heap.length
  nodup : p.free.Nodup

lemma owned_empty : ({} : ObjectPool α).Owned fun _ : ι => none := by
  constructor <;> simp

lemma Owned.write (h : p.Owned own) (a : ℕ) (x : α) : (p.write a x).Owned own where
  lt i b hb := by simpa [ObjectPool.write] using h.lt i b hb
  busy := h.busy
  inj := h.inj
  freeLt b hb := by simpa [ObjectPool.write] using h.freeLt b hb
  nodup := h.nodup

/-- The frame rule: what is done at the address of one owner is not done at another owner's. -/
lemma Owned.ne {i j : ι} {a b : ℕ} (h : p.Owned own) (hi : own i = some a) (hj : own j = some b)
    (hne : j ≠ i) : b ≠ a := by
  rintro rfl
  exact hne (h.inj j i b hj hi)

lemma Owned.exists_read {i : ι} {a : ℕ} (h : p.Owned own) (hi : own i = some a) :
    ∃ x, p.read a = some x :=
  ⟨_, List.getElem?_eq_getElem (h.lt i a hi)⟩

variable [DecidableEq ι]

/-- Somebody gets an address that nobody holds. -/
lemma Owned.give {i : ι} {a : ℕ} (h : p.Owned own) (hnew : ∀ j, own j ≠ some a)
    (hlt : a < p'.heap.length) (hle : p.heap.length ≤ p'.heap.length)
    (hsub : p'.free.Sublist p.free) (hfree : a ∉ p'.free) :
    p'.Owned (Function.update own i (some a)) where
  lt := (Function.forall_update_iff own fun _ o => ∀ b, o = some b → b < p'.heap.length).mpr
    ⟨fun b hb => Option.some.inj hb ▸ hlt, fun j _ b hb => Nat.lt_of_lt_of_le (h.lt j b hb) hle⟩
  busy := (Function.forall_update_iff own fun _ o => ∀ b, o = some b → b ∉ p'.free).mpr
    ⟨fun b hb => Option.some.inj hb ▸ hfree,
      fun j _ b hb hmem => h.busy j b hb (hsub.subset hmem)⟩
  inj j k b hj hk := by
    by_cases hji : j = i
    · by_cases hki : k = i
      · rw [hji, hki]
      · subst hji
        obtain rfl : a = b := by simpa using hj
        exact absurd (by simpa [hki] using hk) (hnew k)
    · by_cases hki : k = i
      · subst hki
        obtain rfl : a = b := by simpa using hk
        exact absurd (by simpa [hji] using hj) (hnew j)
      · exact h.inj j k b (by simpa [hji] using hj) (by simpa [hki] using hk)
  freeLt b hb := Nat.lt_of_lt_of_le (h.freeLt b (hsub.subset hb)) hle
  nodup := h.nodup.sublist hsub

lemma Owned.get {new : α} {c : Option ℕ} {i : ι} {a : ℕ} (h : p.Owned own)
    (hget : p.get new c = some (a, p')) :
    p'.Owned (Function.update own i (some a)) ∧ ∃ x, p'.read a = some x := by
  cases c with
  | none =>
      obtain ⟨rfl, rfl⟩ : p.heap.length = a ∧ _ = p' := by simpa [ObjectPool.get] using hget
      refine ⟨h.give (fun j hj => Nat.lt_irrefl _ (h.lt j _ hj)) (by simp) (by simp)
        (List.Sublist.refl _) (fun hmem => Nat.lt_irrefl _ (h.freeLt _ hmem)), new, ?_⟩
      simp [read]
  | some k =>
      obtain ⟨a', ha', rfl, rfl⟩ : ∃ a', p.free[k]? = some a' ∧ a' = a ∧ _ = p' := by
        simpa [ObjectPool.get] using hget
      have hmem : a' ∈ p.free := List.mem_of_getElem? ha'
      have hlt := h.freeLt a' hmem
      refine ⟨h.give (fun j hj => h.busy j a' hj hmem) hlt (Nat.le_refl _)
        (List.eraseIdx_sublist _ _) ?_, _, List.getElem?_eq_getElem hlt⟩
      -- The address stood in one place only.
      rw [List.mem_eraseIdx_iff_getElem?]
      rintro ⟨j, hne, hj⟩
      obtain ⟨hjlt, -⟩ := List.getElem?_eq_some_iff.mp hj
      exact hne (List.getElem?_inj hjlt h.nodup |>.mp (hj.trans ha'.symm))

lemma Owned.put {i : ι} {a : ℕ} (h : p.Owned own) (hi : own i = some a) :
    (p.put a).Owned (Function.update own i none) where
  lt := (Function.forall_update_iff own fun _ o => ∀ b, o = some b → b < p.heap.length).mpr
    ⟨by simp, fun j _ => h.lt j⟩
  busy := (Function.forall_update_iff own fun _ o => ∀ b, o = some b → b ∉ a :: p.free).mpr
    ⟨by simp, fun j hj b hb hmem => by
      rcases List.mem_cons.mp hmem with rfl | hmem
      · exact hj (h.inj j i b hb hi)
      · exact h.busy j b hb hmem⟩
  inj j k b hj hk := by
    by_cases hji : j = i
    · subst hji
      simp at hj
    · by_cases hki : k = i
      · subst hki
        simp at hk
      · exact h.inj j k b (by simpa [hji] using hj) (by simpa [hki] using hk)
  freeLt b hb := by
    rcases List.mem_cons.mp hb with rfl | hb
    · exact h.lt i b hi
    · exact h.freeLt b hb
  nodup := List.nodup_cons.mpr ⟨h.busy i a hi, h.nodup⟩

lemma Owned.leave {i : ι} (h : p.Owned own) (hi : own i = none) :
    p.Owned (Function.update own i none) := by
  rwa [Function.update_eq_self_iff.mpr hi.symm]

lemma Owned.release {i : ι} {o : Option ℕ} (h : p.Owned own) (hi : own i = o) :
    (o.elim p p.put).Owned (Function.update own i none) := by
  cases o with
  | none => exact h.leave hi
  | some a => exact h.put hi

end ObjectPool
