import Mathlib.Tactic.Common

/-!
# Runs of a labelled step function

A system is a partial step function `step : σ → α → Option σ`: the label names who moves and
which choices the environment makes, and `none` means that the label is not enabled.  A run is
the list of its labels, so that a concrete run can be evaluated.

Three induction rules carry every result that is proved over runs:

* `run_invariant` — what every step preserves holds in every state a run reaches; with
  `run_invariant_labels` it may speak of the labels before;
* `run_invariant_of_along` — the same under a condition on the steps of the run, where the
  condition may look at the state before the step;
* `run_iff_along` — where each step keeps a property exactly when it meets the condition, so does
  the run.

`Along` is that condition, read off the labels of the run; under an invariant one such condition
gives another (`Along.of_invariant`), or two of them agree (`along_iff`), and what the invariant says
of every enabled step holds along the run (`along_of_run`).  A run is also taken apart at its end
(`run_append`, `run_concat`).

That a system gets somewhere is shown by `run_until`: steps that make a measure smaller lead to a state
where none is left to take.

Two systems are compared by `run_simulation`: where each step of the one is answered by steps of the
other that keep a relation, so is each run.  A condition on the one may then be read off the other
(`along_iff_of_simulation`).
-/

namespace LabelledRun

variable {σ α : Type*} (step : σ → α → Option σ)

/-- Run the labels in order; `none` as soon as one of them is not enabled. -/
def run : σ → List α → Option σ
  | s, [] => some s
  | s, a :: as => (step s a).bind fun s' => run s' as

/-- Every step of the run meets the condition `C` in the state it is taken from. -/
def Along (C : σ → α → Prop) : σ → List α → Prop
  | _, [] => True
  | s, a :: as => C s a ∧ ∀ s', step s a = some s' → Along C s' as

variable {step}

instance decidableAlong {C : σ → α → Prop} [hC : ∀ s a, Decidable (C s a)] :
    ∀ (s : σ) (as : List α), Decidable (Along step C s as)
  | _, [] => isTrue trivial
  | s, a :: as =>
    match h : step s a with
    | none => decidable_of_iff (C s a) (by simp [Along, h])
    | some m =>
      have : Decidable (Along step C m as) := decidableAlong m as
      decidable_of_iff (C s a ∧ Along step C m as) (by simp [Along, h])

@[simp] lemma run_nil (s : σ) : run step s [] = some s := rfl

lemma run_cons_eq_some {s s' : σ} {a : α} {as : List α} :
    run step s (a :: as) = some s' ↔ ∃ m, step s a = some m ∧ run step m as = some s' := by
  simp [run, Option.bind_eq_some_iff]

/-- A run of `as ++ bs` is a run of `as` followed by a run of `bs`. -/
lemma run_append {s s' : σ} {as bs : List α} :
    run step s (as ++ bs) = some s' ↔
      ∃ m, run step s as = some m ∧ run step m bs = some s' := by
  induction as generalizing s with
  | nil => simp
  | cons a as ih =>
      simp only [List.cons_append, run_cons_eq_some, ih]
      constructor
      · rintro ⟨m, hm, n, hn, hs'⟩
        exact ⟨n, ⟨m, hm, hn⟩, hs'⟩
      · rintro ⟨n, ⟨m, hm, hn⟩, hs'⟩
        exact ⟨m, hm, n, hn, hs'⟩

lemma run_concat {s s' : σ} {as : List α} {a : α} :
    run step s (as ++ [a]) = some s' ↔
      ∃ m, run step s as = some m ∧ step m a = some s' := by
  rw [run_append]
  simp [run_cons_eq_some]

lemma along_cons {C : σ → α → Prop} {s m : σ} {a : α} {as : List α} (hm : step s a = some m) :
    Along step C s (a :: as) ↔ C s a ∧ Along step C m as := by
  simp [Along, hm]

lemma Along.last {C : σ → α → Prop} {s m : σ} {as : List α} {a : α}
    (hC : Along step C s (as ++ [a])) (hrun : run step s as = some m) : C m a := by
  induction as generalizing s with
  | nil =>
      cases hrun
      exact hC.1
  | cons b bs ih =>
      obtain ⟨n, hn, hrest⟩ := run_cons_eq_some.mp hrun
      exact ih (hC.2 n hn) hrest

/-- Where an invariant enables every label, every list of labels is a run. -/
theorem run_exists {I : σ → Prop} (hstep : ∀ s a, I s → ∃ s', step s a = some s' ∧ I s') {s : σ}
    (hs : I s) (as : List α) : ∃ s', run step s as = some s' := by
  induction as generalizing s with
  | nil => exact ⟨s, rfl⟩
  | cons a as ih =>
      obtain ⟨m, hm, hI⟩ := hstep s a hs
      obtain ⟨s', hs'⟩ := ih hI
      exact ⟨s', run_cons_eq_some.mpr ⟨m, hm, hs'⟩⟩

/-- **The invariant rule.**  What every step preserves holds at the end of every run. -/
theorem run_invariant {I : σ → Prop}
    (hstep : ∀ s a s', I s → step s a = some s' → I s')
    {s s' : σ} {as : List α} (hs : I s) (hrun : run step s as = some s') : I s' := by
  induction as generalizing s with
  | nil =>
      cases hrun
      exact hs
  | cons a as ih =>
      obtain ⟨m, hm, hrest⟩ := run_cons_eq_some.mp hrun
      exact ih (hstep s a m hs hm) hrest

/-- **The invariant rule with the run so far.**  What is known of a state may speak of the labels that
have led to it. -/
theorem run_invariant_labels {I : List α → σ → Prop}
    (hstep : ∀ as s a s', I as s → step s a = some s' → I (as ++ [a]) s')
    {s s' : σ} {before as : List α} (hs : I before s) (hrun : run step s as = some s') :
    I (before ++ as) s' := by
  induction as generalizing s before with
  | nil =>
      cases hrun
      rwa [List.append_nil]
  | cons a as ih =>
      obtain ⟨m, hm, hrest⟩ := run_cons_eq_some.mp hrun
      rw [List.append_cons]
      exact ih (hstep before s a m hs hm) hrest

/-- **The guarded invariant rule.**  What every step that meets `C` preserves holds at the end
of every run all of whose steps meet `C`. -/
theorem run_invariant_of_along {I : σ → Prop} {C : σ → α → Prop}
    (hstep : ∀ s a s', I s → C s a → step s a = some s' → I s')
    {s s' : σ} {as : List α} (hs : I s) (hC : Along step C s as)
    (hrun : run step s as = some s') : I s' := by
  induction as generalizing s with
  | nil =>
      cases hrun
      exact hs
  | cons a as ih =>
      obtain ⟨m, hm, hrest⟩ := run_cons_eq_some.mp hrun
      exact ih (hstep s a m hs hC.1 hm) (hC.2 m hm) hrest

/-- Under an invariant, one condition along a run gives another. -/
theorem Along.of_invariant {I : σ → Prop} {C D : σ → α → Prop}
    (hstep : ∀ s a s', I s → C s a → step s a = some s' → I s')
    (hD : ∀ s a, I s → C s a → D s a) {s : σ} {as : List α} (hs : I s)
    (hC : Along step C s as) : Along step D s as := by
  induction as generalizing s with
  | nil => trivial
  | cons a as ih =>
      exact ⟨hD s a hs hC.1, fun m hm => ih (hstep s a m hs hC.1 hm) (hC.2 m hm)⟩

/-- Under an invariant that the steps meeting `C` keep, two conditions that agree on every enabled
step agree along a run. -/
theorem along_iff {I : σ → Prop} {C D : σ → α → Prop}
    (hstep : ∀ s a s', I s → C s a → step s a = some s' → I s')
    (hiff : ∀ s a s', I s → step s a = some s' → (D s a ↔ C s a)) {s s' : σ} {as : List α}
    (hs : I s) (hrun : run step s as = some s') : Along step D s as ↔ Along step C s as := by
  induction as generalizing s with
  | nil => exact Iff.rfl
  | cons a as ih =>
      obtain ⟨m, hm, hrest⟩ := run_cons_eq_some.mp hrun
      rw [along_cons hm, along_cons hm, hiff s a m hs hm]
      exact and_congr_right fun hC => ih (hstep s a m hs hC hm) hrest

/-- What an invariant says about every enabled step holds along a run. -/
theorem along_of_run {I : σ → Prop} {D : σ → α → Prop}
    (hstep : ∀ s a s', I s → step s a = some s' → I s')
    (hD : ∀ s a s', I s → step s a = some s' → D s a) {s s' : σ} {as : List α} (hs : I s)
    (hrun : run step s as = some s') : Along step D s as := by
  induction as generalizing s with
  | nil => trivial
  | cons a as ih =>
      obtain ⟨m, hm, hrest⟩ := run_cons_eq_some.mp hrun
      exact (along_cons hm).mpr ⟨hD s a m hs hm, ih (hstep s a m hs hm) hrest⟩

/-- **The progress rule.**  Where every state that is not done can take a step that makes the measure
smaller, there is a run of such steps to a state that is done, no longer than the measure. -/
theorem run_until {I D : σ → Prop} {A : α → Prop} {μ : σ → ℕ}
    (hstep : ∀ s, I s → D s ∨ ∃ a s', A a ∧ step s a = some s' ∧ I s' ∧ μ s' < μ s) {s : σ} (hs : I s) :
    ∃ as s', (∀ a ∈ as, A a) ∧ as.length ≤ μ s ∧ run step s as = some s' ∧ I s' ∧ D s' := by
  induction hμ : μ s using Nat.strongRecOn generalizing s with
  | ind n ih =>
      rcases hstep s hs with hdone | ⟨a, m, ha, hm, hI, hlt⟩
      · exact ⟨[], s, by simp, by simp, rfl, hs, hdone⟩
      · obtain ⟨as, s', hall, hlen, hrun, hI', hdone⟩ := ih (μ m) (hμ ▸ hlt) hI rfl
        refine ⟨a :: as, s', by simpa using ⟨ha, hall⟩, ?_, run_cons_eq_some.mpr ⟨m, hm, hrun⟩, hI', hdone⟩
        rw [List.length_cons]
        omega

/-- **The simulation rule.**  Where every step that meets `C` is answered by the labels `f a`, and the
answer keeps `R`, every run all of whose steps meet `C` is answered. -/
theorem run_simulation {τ β : Type*} {step' : τ → β → Option τ} {R : σ → τ → Prop}
    {C : σ → α → Prop} {f : α → List β}
    (hstep : ∀ s t a s', R s t → C s a → step s a = some s' →
      ∃ t', run step' t (f a) = some t' ∧ R s' t')
    {s s' : σ} {t : τ} {as : List α} (hR : R s t) (hC : Along step C s as)
    (hrun : run step s as = some s') :
    ∃ t', run step' t (as.flatMap f) = some t' ∧ R s' t' := by
  induction as generalizing s t with
  | nil =>
      cases hrun
      exact ⟨t, rfl, hR⟩
  | cons a as ih =>
      obtain ⟨m, hm, hrest⟩ := run_cons_eq_some.mp hrun
      obtain ⟨n, hn, hR'⟩ := hstep s t a m hR hC.1 hm
      obtain ⟨t', ht', hRt⟩ := ih hR' (hC.2 m hm) hrest
      exact ⟨t', by simpa using run_append.mpr ⟨n, hn, ht'⟩, hRt⟩

/-- Where a second system follows every step that meets `C`, and says of a step what `C` says of it, the
condition along a run can be read off the second system. -/
theorem along_iff_of_simulation {τ : Type*} {step' : τ → α → Option τ} {R : σ → τ → Prop}
    {C : σ → α → Prop} {D : τ → α → Prop}
    (hstep : ∀ s t a s', R s t → C s a → step s a = some s' → ∃ t', step' t a = some t' ∧ R s' t')
    (hiff : ∀ s t a s', R s t → step s a = some s' → (C s a ↔ D t a)) {s s' : σ} {t : τ}
    {as : List α} (hR : R s t) (hrun : run step s as = some s') :
    Along step C s as ↔ Along step' D t as := by
  induction as generalizing s t with
  | nil => exact Iff.rfl
  | cons a as ih =>
      obtain ⟨m, hm, hrest⟩ := run_cons_eq_some.mp hrun
      rw [along_cons hm, Along, ← hiff s t a m hR hm]
      refine and_congr_right fun hC => ?_
      obtain ⟨n, hn, hR'⟩ := hstep s t a m hR hC hm
      rw [ih hR' hrest]
      exact ⟨fun h t' ht' => Option.some.inj (hn.symm.trans ht') ▸ h, fun h => h n hn⟩

/-- **The exact rule.**  If, under an invariant, a step keeps `P` exactly when it meets `C`, then a
run keeps `P` exactly when all its steps meet `C`. -/
theorem run_iff_along {I P : σ → Prop} {C : σ → α → Prop}
    (hI : ∀ s a s', I s → step s a = some s' → I s')
    (hstep : ∀ s a s', I s → step s a = some s' → (P s' ↔ P s ∧ C s a))
    {s s' : σ} {as : List α} (hs : I s) (hrun : run step s as = some s') :
    P s' ↔ P s ∧ Along step C s as := by
  induction as generalizing s with
  | nil =>
      cases hrun
      simp [Along]
  | cons a as ih =>
      obtain ⟨m, hm, hrest⟩ := run_cons_eq_some.mp hrun
      rw [ih (hI s a m hs hm) hrest, hstep s a m hs hm, along_cons hm, and_assoc]

end LabelledRun
