import Mathlib.Data.List.DropRight

/-!
# The last `n` elements of a list

`List.rtake l n` is the window of the last `n` elements of a list that grows at its end.  A window can
be slid along without the elements that have left it (`rtake_rtake_append`), and a list that has lost
elements at its front shows the same window exactly when the window is full or nothing has been lost
(`rtake_eq_iff_of_suffix`).
-/

namespace List

variable {α : Type*} {n : ℕ} {xs ys : List α}

@[simp] lemma length_rtake (xs : List α) (n : ℕ) : (xs.rtake n).length = min n xs.length := by
  simp only [rtake, length_drop]
  omega

lemma rtake_of_length_le (h : xs.length ≤ n) : xs.rtake n = xs := by
  simp [rtake, Nat.sub_eq_zero_of_le h]

/-- A window reaches into the older elements only as far as the newer ones leave room. -/
lemma rtake_append (xs ys : List α) (n : ℕ) :
    (xs ++ ys).rtake n = xs.rtake (n - ys.length) ++ ys.rtake n := by
  simp only [rtake, length_append, drop_append]
  have hys : xs.length + ys.length - n - xs.length = ys.length - n := by omega
  rw [hys]
  congr 1
  by_cases hfull : n ≤ ys.length
  · rw [drop_eq_nil_of_le (by omega), drop_eq_nil_of_le (by omega)]
  · congr 1
    omega

/-- **Sliding.**  What has left the window is not needed to slide it on. -/
theorem rtake_rtake_append (xs ys : List α) (n : ℕ) :
    (xs.rtake n ++ ys).rtake n = (xs ++ ys).rtake n := by
  rw [rtake_append, rtake_append]
  congr 1
  simp only [rtake, length_drop, drop_drop]
  congr 1
  omega

/-- **Loss.**  A list that has lost elements at its front shows the same window exactly when the window
is full or nothing has been lost. -/
theorem rtake_eq_iff_of_suffix (h : ys <:+ xs) :
    ys.rtake n = xs.rtake n ↔ n ≤ ys.length ∨ ys = xs := by
  obtain ⟨zs, rfl⟩ := h
  rw [rtake_append]
  constructor
  · intro heq
    have hlen := congrArg length heq
    simp only [length_append, length_rtake] at hlen
    by_cases hfull : n ≤ ys.length
    · exact .inl hfull
    · have hzs : zs.length = 0 := by omega
      simp [length_eq_zero_iff.mp hzs]
  · rintro (hfull | hzs)
    · simp [Nat.sub_eq_zero_of_le hfull]
    · simp [self_eq_append_left.mp hzs]

end List
