import Mathlib.Tactic.Common

/-!
# Loops

A loop is its guard and its body.  `after k s` is the state after `k` iterations, or the state it has
ended in if there were fewer.  A loop that consumes something in each iteration ends
(`ends_of_decreases`), and one that comes back to where another iteration is due never does
(`not_ends_of_invariant`).
-/

namespace Loop

variable {σ : Type*} (guard : σ → Prop) [DecidablePred guard] (body : σ → σ)

/-- The state after `k` iterations. -/
def after : ℕ → σ → σ
  | 0, s => s
  | k + 1, s => if guard s then after k (body s) else s

/-- The loop ends. -/
def Ends (s : σ) : Prop := ∃ k, ¬ guard (after guard body k s)

/-- Every iteration makes the measure smaller. -/
def Decreases (μ : σ → ℕ) (s : σ) : Prop :=
  ∀ k, guard (after guard body k s) → μ (body (after guard body k s)) < μ (after guard body k s)

variable {guard body} {I : σ → Prop} {μ : σ → ℕ} {s : σ}

lemma after_invariant (hbody : ∀ s, I s → guard s → I (body s)) (hs : I s) (k : ℕ) :
    I (after guard body k s) := by
  induction k generalizing s with
  | zero => exact hs
  | succ k ih =>
      unfold after
      split
      next hguard => exact ih (hbody s hs hguard)
      next => exact hs

lemma decreases_of_invariant (hbody : ∀ s, I s → guard s → I (body s) ∧ μ (body s) < μ s)
    (hs : I s) : Decreases guard body μ s := fun k hguard =>
  (hbody _ (after_invariant (fun s hs hguard => (hbody s hs hguard).1) hs k) hguard).2

/-- **Progress.**  A loop whose every iteration consumes something ends. -/
theorem ends_of_decreases (h : Decreases guard body μ s) : Ends guard body s := by
  induction hμ : μ s using Nat.strongRecOn generalizing s with
  | ind m ih =>
      by_cases hguard : guard s
      · have hafter : ∀ k, after guard body (k + 1) s = after guard body k (body s) := fun k => by
          simp [after, hguard]
        have hrest : Decreases guard body μ (body s) := fun k => by
          rw [← hafter]
          exact h (k + 1)
        obtain ⟨k, hk⟩ := ih (μ (body s)) (hμ ▸ h 0 hguard) hrest rfl
        exact ⟨k + 1, by rwa [hafter]⟩
      · exact ⟨0, hguard⟩

/-- **No progress.**  A loop that keeps what its guard follows from never ends. -/
theorem not_ends_of_invariant (hguard : ∀ s, I s → guard s) (hbody : ∀ s, I s → I (body s))
    (hs : I s) : ¬ Ends guard body s := by
  rintro ⟨k, hk⟩
  exact hk (hguard _ (after_invariant (fun s hs _ => hbody s hs) hs k))

end Loop
