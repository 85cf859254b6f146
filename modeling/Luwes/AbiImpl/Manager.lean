import Mathlib.Logic.Function.Basic
import Mathlib.Tactic.Common

/-!
# The sharded maps (`manager`, `abi_impl/internal.go`)

A manager keeps the Go objects whose addresses the host or a string holds.  It is `numManagerShards`
maps, and an address lives in the shard of its remainder.  An operation takes the lock of one shard,
so it is one step here.

`search_record` and `search_remove` are all that the users of a manager need: it is read like one map.
That threads may use a manager at the same time is the subject of `ManagerThreads`.
-/

namespace Luwes.AbiImpl

/-- `numManagerShards`. -/
def numManagerShards : ℕ := 32

/-- `manager`, by shard and address. -/
structure Manager (α : Type) where
  data : Fin numManagerShards → ℕ → Option α := fun _ _ => none

namespace Manager

variable {α : Type}

/-- The shard of an address. -/
def index (pointer : ℕ) : Fin numManagerShards :=
  ⟨pointer % numManagerShards, Nat.mod_lt _ (by decide)⟩

/-- `record`, of an item at an address. -/
def record (m : Manager α) (pointer : ℕ) (item : α) : Manager α :=
  { data := Function.update m.data (index pointer)
      (Function.update (m.data (index pointer)) pointer (some item)) }

/-- `search`. -/
def search (m : Manager α) (key : ℕ) : Option α := m.data (index key) key

/-- `remove`. -/
def remove (m : Manager α) (pointer : ℕ) : Manager α :=
  { data := Function.update m.data (index pointer)
      (Function.update (m.data (index pointer)) pointer none) }

@[simp] lemma search_empty (key : ℕ) : ({} : Manager α).search key = none := rfl

/-- A write to one address of its shard, seen from any address. -/
lemma search_update (m : Manager α) (pointer key : ℕ) (o : Option α) :
    ({ data := Function.update m.data (index pointer)
        (Function.update (m.data (index pointer)) pointer o) } : Manager α).search key =
      if key = pointer then o else m.search key := by
  by_cases hkey : key = pointer
  · simp [search, hkey]
  · by_cases hindex : index key = index pointer
    · simp [search, hkey, hindex]
    · simp [search, hkey, hindex]

@[simp] lemma search_record (m : Manager α) (pointer key : ℕ) (item : α) :
    (m.record pointer item).search key = if key = pointer then some item else m.search key :=
  search_update m pointer key (some item)

@[simp] lemma search_remove (m : Manager α) (pointer key : ℕ) :
    (m.remove pointer).search key = if key = pointer then none else m.search key :=
  search_update m pointer key none

/-- Every address is in the shard of its remainder. -/
def Placed (m : Manager α) : Prop :=
  ∀ i key item, m.data i key = some item → key % numManagerShards = i

lemma placed_empty : ({} : Manager α).Placed := by
  intro i key item h
  cases h

lemma Placed.update {m : Manager α} (hm : m.Placed) (pointer : ℕ) (o : Option α) :
    ({ data := Function.update m.data (index pointer)
        (Function.update (m.data (index pointer)) pointer o) } : Manager α).Placed := by
  intro i key item h
  by_cases hi : i = index pointer
  · subst hi
    by_cases hkey : key = pointer
    · rw [hkey, index]
    · simp only [Function.update_self, Function.update_of_ne hkey] at h
      exact hm _ key item h
  · simp only [Function.update_of_ne hi] at h
    exact hm i key item h

/-- `clearData`: remove one address after the other. -/
def removeAll (m : Manager α) (pointers : List ℕ) : Manager α := pointers.foldl remove m

@[simp] lemma search_removeAll (m : Manager α) (pointers : List ℕ) (key : ℕ) :
    (m.removeAll pointers).search key = if key ∈ pointers then none else m.search key := by
  induction pointers generalizing m with
  | nil => simp [removeAll]
  | cons p ps ih =>
      rw [removeAll, List.foldl_cons, ← removeAll, ih, search_remove]
      by_cases hkey : key = p
      · simp [hkey]
      · simp [hkey]

end Manager

end Luwes.AbiImpl
