import Mathlib.Logic.Function.Basic
import Mathlib.Tactic.Common

/-!
# Handing over by key

Owners leave values in a map that they share, each under a key of its own choice.  Somebody else takes a
value out by its key, and an owner removes in the end what nobody has taken.

The map does not know whose a value is.  `Sound` ties it to the owners: it holds the values that have been
left and not been taken.  It is kept by the three operations as long as each uses a key under which nobody
else has left anything (`OwnKey`), and then what is taken for an owner is what that owner has left
(`Sound.load`).
-/

namespace Handoff

variable {ι κ ν : Type*} [DecidableEq ι] [DecidableEq κ] {pending : κ → Option ν}
  {left : ι → Option (κ × ν)} {taken : ι → Prop} {i : ι} {k : κ} {v : ν}

/-- The map holds what has been left and not been taken, and no two owners have left something under one
key. -/
structure Sound (pending : κ → Option ν) (left : ι → Option (κ × ν)) (taken : ι → Prop) : Prop where
  pending_iff : ∀ k v, pending k = some v ↔ ∃ i, left i = some (k, v) ∧ ¬taken i
  apart : ∀ i j k v w, left i = some (k, v) → left j = some (k, w) → i = j

/-- Nobody else has left anything under the key. -/
def OwnKey (left : ι → Option (κ × ν)) (i : ι) (k : κ) : Prop := ∀ j v, left j = some (k, v) → j = i

omit [DecidableEq ι] [DecidableEq κ] in
lemma sound_empty : Sound (fun _ : κ => (none : Option ν)) (fun _ : ι => none) taken where
  pending_iff := by simp
  apart := by simp

/-- An owner that has left nothing leaves a value. -/
lemma Sound.store (h : Sound pending left taken) (hown : OwnKey left i k) (hnone : left i = none)
    (hnot : ¬taken i) (v : ν) :
    Sound (Function.update pending k (some v)) (Function.update left i (some (k, v))) taken where
  pending_iff k' v' := by
    by_cases hk : k' = k
    · subst hk
      rw [Function.update_self, Option.some_inj]
      constructor
      · rintro rfl
        exact ⟨i, Function.update_self .., hnot⟩
      · rintro ⟨j, hj, -⟩
        by_cases hji : j = i
        · subst hji
          simpa using hj
        · rw [Function.update_of_ne hji] at hj
          exact absurd (hown j v' hj) hji
    · rw [Function.update_of_ne hk, h.pending_iff]
      refine exists_congr fun j => and_congr_left fun _ => ?_
      by_cases hji : j = i
      · subst hji
        simp [hnone, Ne.symm hk]
      · rw [Function.update_of_ne hji]
  apart j j' k' v' w hj hj' := by
    by_cases hji : j = i
    · by_cases hji' : j' = i
      · rw [hji, hji']
      · subst hji
        obtain ⟨rfl, -⟩ : k = k' ∧ v = v' := by simpa using hj
        rw [Function.update_of_ne hji'] at hj'
        exact (hown j' w hj').symm
    · rw [Function.update_of_ne hji] at hj
      by_cases hji' : j' = i
      · subst hji'
        obtain ⟨rfl, -⟩ : k = k' ∧ v = w := by simpa using hj'
        exact hown j v' hj
      · rw [Function.update_of_ne hji'] at hj'
        exact h.apart j j' k' v' w hj hj'

/-- An owner removes what it has left under the key. -/
lemma Sound.delete (h : Sound pending left taken) (hown : OwnKey left i k)
    (hkey : ∀ k' v, left i = some (k', v) → k' = k) :
    Sound (Function.update pending k none) (Function.update left i none) taken where
  pending_iff k' v' := by
    by_cases hk : k' = k
    · subst hk
      simp only [Function.update_self, reduceCtorEq, false_iff, not_exists]
      rintro j ⟨hj, -⟩
      by_cases hji : j = i
      · subst hji
        simp at hj
      · rw [Function.update_of_ne hji] at hj
        exact hji (hown j v' hj)
    · rw [Function.update_of_ne hk, h.pending_iff]
      refine exists_congr fun j => and_congr_left fun _ => ?_
      by_cases hji : j = i
      · subst hji
        simpa using fun hj => hk (hkey k' v' hj)
      · rw [Function.update_of_ne hji]
  apart j j' k' v' w hj hj' := by
    have hne {j : ι} {x : κ × ν} (hj : Function.update left i none j = some x) : left j = some x := by
      by_cases hji : j = i
      · subst hji
        simp at hj
      · rwa [Function.update_of_ne hji] at hj
    exact h.apart j j' k' v' w (hne hj) (hne hj')

omit [DecidableEq ι] [DecidableEq κ] in
/-- **What is found** for an owner is what it has left, and nobody has taken it. -/
lemma Sound.load (h : Sound pending left taken) (hown : OwnKey left i k) (hv : pending k = some v) :
    left i = some (k, v) ∧ ¬taken i := by
  obtain ⟨j, hj, hnot⟩ := (h.pending_iff k v).mp hv
  obtain rfl := hown j v hj
  exact ⟨hj, hnot⟩

omit [DecidableEq ι] in
/-- What an owner has left is taken. -/
lemma Sound.take (h : Sound pending left taken) (hi : left i = some (k, v)) :
    Sound (Function.update pending k none) left fun j => taken j ∨ j = i where
  pending_iff k' v' := by
    by_cases hk : k' = k
    · subst hk
      simp only [Function.update_self, reduceCtorEq, false_iff, not_exists]
      rintro j ⟨hj, hnot⟩
      exact hnot (.inr (h.apart j i _ _ _ hj hi))
    · rw [Function.update_of_ne hk, h.pending_iff]
      refine exists_congr fun j => and_congr_right fun hj => ?_
      have hne : j ≠ i := by
        rintro rfl
        exact hk (Prod.mk.inj (Option.some.inj (hj.symm.trans hi))).1
      simp [hne]
  apart := h.apart

end Handoff
