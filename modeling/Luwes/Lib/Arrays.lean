import Luwes.Lib.Window
import Mathlib.Data.Nat.ModEq

/-!
# Sequences in arrays

Two things that programs do with an array as if it were a sequence.

A sequence is reversed in place by swapping its ends and going inwards (`reverseLoop_eq_reverse`).

A sequence that never ends is kept in a cyclic array: its `i`-th element is written into slot `i % cap`,
over what was there.  `Shows cap xs ring` says that the array holds the last `cap` elements of `xs` in
this way.  It is kept by writing the next element (`Shows.push`), and going back from the next free slot
reads the window of the last `cap` elements, newest first (`Shows.newestFirst`).
-/

namespace List

variable {α : Type*}

/-- The loop that swaps the elements at `i` and `j` and goes inwards until they meet. -/
def reverseLoop (xs : List α) (i j : ℕ) : List α :=
  if i < j then reverseLoop (xs.swap i j) (i + 1) (j - 1) else xs
termination_by j - i

lemma getElem?_swap {xs : List α} {i j : ℕ} (hi : i < xs.length) (hj : j < xs.length) (k : ℕ) :
    (xs.swap i j)[k]? = if k = j then xs[i]? else if k = i then xs[j]? else xs[k]? := by
  by_cases hk : k < xs.length
  · grind
  · grind

lemma getElem?_reverseLoop (xs : List α) (i j : ℕ) (hj : j < xs.length) (k : ℕ) :
    (reverseLoop xs i j)[k]? = if i ≤ k ∧ k ≤ j then xs[i + j - k]? else xs[k]? := by
  fun_induction reverseLoop xs i j with
  | case1 xs i j hlt ih =>
      have hi : i < xs.length := hlt.trans hj
      rw [ih (by rw [length_swap]; omega), getElem?_swap hi hj, getElem?_swap hi hj]
      grind
  | case2 xs i j hge =>
      split
      next hk =>
        obtain rfl : k = j := by omega
        congr 1
        omega
      next => rfl

/-- **Reversing in place.** -/
theorem reverseLoop_eq_reverse (xs : List α) : xs.reverseLoop 0 (xs.length - 1) = xs.reverse := by
  rcases xs with _ | ⟨x, xs⟩
  · rw [reverseLoop, if_neg (by simp), reverse_nil]
  · refine ext_getElem? fun k => ?_
    rw [getElem?_reverseLoop _ _ _ (by simp)]
    split
    next hk => rw [getElem?_reverse (by simp at hk ⊢; omega), Nat.zero_add]
    next hk =>
      have hlen : (x :: xs).length ≤ k := by simp at hk ⊢; omega
      rw [getElem?_eq_none hlen, getElem?_eq_none (by simpa using hlen)]

end List

namespace Cyclic

variable {α : Type*} {cap : ℕ} {xs : List α} {ring : List (Option α)}

/-- The array holds the last `cap` elements of the sequence, each in the slot of its position. -/
structure Shows (cap : ℕ) (xs : List α) (ring : List (Option α)) : Prop where
  length : ring.length = cap
  slot : ∀ i (hi : i < xs.length), xs.length ≤ i + cap → ring[i % cap]? = some (some xs[i])

lemma shows_empty (cap : ℕ) : Shows cap ([] : List α) (List.replicate cap none) :=
  ⟨List.length_replicate, fun i hi => absurd hi (Nat.not_lt_zero i)⟩

/-- Positions less than `cap` apart have different slots. -/
lemma mod_ne_mod {i j : ℕ} (hij : i < j) (hlt : j < i + cap) : i % cap ≠ j % cap := by
  intro heq
  have hdvd : cap ∣ j - i := (Nat.modEq_iff_dvd' hij.le).mp heq
  exact absurd (Nat.le_of_dvd (Nat.sub_pos_of_lt hij) hdvd) (by omega)

/-- **Writing the next element** overwrites the one that has left the window. -/
theorem Shows.push (h : Shows cap xs ring) (hcap : 0 < cap) (x : α) :
    Shows cap (xs ++ [x]) (ring.set (xs.length % cap) (some x)) where
  length := (List.length_set).trans h.length
  slot := by
    intro i hi hwindow
    simp only [List.length_append, List.length_singleton] at hi hwindow
    rcases Nat.lt_succ_iff_lt_or_eq.mp hi with hold | rfl
    · have hne : xs.length % cap ≠ i % cap := (mod_ne_mod hold (by omega)).symm
      rw [List.getElem?_set_ne hne, List.getElem_append_left hold]
      exact h.slot i hold (by omega)
    · have hslot : xs.length % cap < ring.length := by
        rw [h.length]
        exact Nat.mod_lt _ hcap
      rw [List.getElem?_set_self hslot, List.getElem_concat_length rfl]

lemma Shows.back (h : Shows cap xs ring) {i : ℕ} (hcap : i < cap) (hi : i < xs.length) :
    ring[(xs.length % cap + (cap - 1 - i)) % cap]? = some (some xs[xs.length - 1 - i]) := by
  have hslot : (xs.length % cap + (cap - 1 - i)) % cap = (xs.length - 1 - i) % cap := by
    rw [Nat.mod_add_mod, show xs.length + (cap - 1 - i) = xs.length - 1 - i + cap by omega,
      Nat.add_mod_right]
  rw [hslot]
  exact h.slot _ (by omega) (by omega)

/-- **The window**, newest element first. -/
theorem Shows.newestFirst (h : Shows cap xs ring) :
    (List.range (min cap xs.length)).map
        (fun i => ring[(xs.length % cap + (cap - 1 - i)) % cap]?) =
      ((xs.rtake cap).reverse).map fun x => some (some x) := by
  refine List.ext_getElem (by simp) fun i hi _ => ?_
  simp only [List.length_map, List.length_range, Nat.lt_min] at hi
  rw [List.getElem_map, List.getElem_range, h.back hi.1 hi.2, List.getElem_map, List.getElem_reverse]
  simp only [List.rtake, List.getElem_drop, List.length_drop]
  congr 3
  omega

end Cyclic
