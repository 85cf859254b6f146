import Mathlib.Data.List.Basic

/-!
# Properties of a history

A history is the list of what has happened, oldest first.  A property such as "nothing of this kind
after one of that kind" speaks about every event together with the events before it.  `Always P`
says so for the relation `P pre o` between an event and its past.

Histories grow at the end, and the one rule that matters is `always_append`: the events added by a
step are judged with the old history in front of them, the old events are judged as before.

What has been opened and is yet to be closed looks the other way, at the events after it: `Followed P Q`
says that each event of kind `P` has one of kind `Q` after it (`followed_concat`), and `Since P Q` that
some event of kind `P` has none (`since_concat`).
-/

namespace History

variable {α : Type*} {P Q : List α → α → Prop}

/-- Every event of the history is related to the events before it by `P`. -/
def Always (P : List α → α → Prop) (tr : List α) : Prop :=
  ∀ pre o post, tr = pre ++ o :: post → P pre o

@[simp] lemma always_nil : Always P [] := by
  intro pre o post h
  simp at h

theorem always_append {xs ys : List α} :
    Always P (xs ++ ys) ↔ Always P xs ∧ Always (fun pre o => P (xs ++ pre) o) ys := by
  constructor
  · intro h
    constructor
    · intro pre o post hxs
      exact h pre o (post ++ ys) (by simp [hxs])
    · intro pre o post hys
      exact h (xs ++ pre) o post (by simp [hys])
  · rintro ⟨hxs, hys⟩ pre o post h
    rcases List.append_eq_append_iff.mp h with ⟨zs, rfl, hzs⟩ | ⟨zs, rfl, hzs⟩
    · exact hys zs o post hzs
    · cases zs with
      | nil =>
          obtain hys' : o :: post = ys := by simpa using hzs
          simpa using hys [] o post hys'.symm
      | cons z zs =>
          obtain ⟨rfl, rfl⟩ : o = z ∧ post = zs ++ ys := by simpa using hzs
          exact hxs pre o zs rfl

@[simp] lemma always_cons {x : α} {xs : List α} :
    Always P (x :: xs) ↔ P [] x ∧ Always (fun pre o => P (x :: pre) o) xs := by
  have hx : Always P [x] ↔ P [] x := by
    constructor
    · intro h
      exact h [] x [] rfl
    · intro h pre o post heq
      cases pre with
      | nil => cases heq; exact h
      | cons y pre => simp at heq
  have happ : Always P ([x] ++ xs) ↔ Always P [x] ∧ Always (fun pre o => P ([x] ++ pre) o) xs :=
    always_append
  rw [hx] at happ
  exact happ

lemma always_concat {tr : List α} {o : α} : Always P (tr ++ [o]) ↔ Always P tr ∧ P tr o := by
  simp [always_append]

lemma Always.imp {tr : List α} (h : Always P tr) (hPQ : ∀ pre, ∀ o ∈ tr, P pre o → Q pre o) :
    Always Q tr := by
  intro pre o post htr
  exact hPQ pre o (by simp [htr]) (h pre o post htr)

/-- Events of which `P` holds whatever came before. -/
lemma always_of_forall {tr : List α} (h : ∀ o ∈ tr, ∀ pre, P pre o) : Always P tr := by
  intro pre o post htr
  exact h o (by simp [htr]) pre

/-- Every event of kind `P` is followed by one of kind `Q`. -/
def Followed (P Q : α → Prop) : List α → Prop
  | [] => True
  | o :: post => (P o → ∃ o' ∈ post, Q o') ∧ Followed P Q post

section Followed

variable {P Q : α → Prop} {tr : List α}

@[simp] lemma followed_nil : Followed P Q [] := trivial

/-- The last event closes what is open, unless it opens something itself. -/
theorem followed_concat {o : α} :
    Followed P Q (tr ++ [o]) ↔ ¬ P o ∧ (Q o ∨ Followed P Q tr) := by
  induction tr with
  | nil => simp [Followed]
  | cons x tr ih =>
      simp only [List.cons_append, Followed, ih, List.mem_append, List.mem_singleton, or_and_right,
        exists_or, exists_eq_left]
      by_cases hQ : Q o <;> simp [hQ, and_left_comm]

lemma followed_append {obs : List α} (h : ∀ o ∈ obs, ¬ P o ∧ ¬ Q o) :
    Followed P Q (tr ++ obs) ↔ Followed P Q tr := by
  induction obs generalizing tr with
  | nil => simp
  | cons o obs ih =>
      obtain ⟨ho, hobs⟩ := List.forall_mem_cons.mp h
      rw [List.append_cons, ih hobs, followed_concat]
      simp [ho]

end Followed

/-- There is an event of kind `P`, and since then there was none of kind `Q`. -/
def Since (P Q : α → Prop) (tr : List α) : Prop :=
  ∃ pre o post, tr = pre ++ o :: post ∧ P o ∧ ∀ x ∈ post, ¬ Q x

section Since

variable {P Q : α → Prop} {tr : List α}

@[simp] lemma not_since_nil : ¬ Since P Q [] := by
  rintro ⟨pre, o, post, h, -⟩
  simp at h

/-- The last event is of kind `P` itself, or leaves what there was. -/
theorem since_concat {o : α} : Since P Q (tr ++ [o]) ↔ P o ∨ Since P Q tr ∧ ¬ Q o := by
  constructor
  · rintro ⟨pre, x, post, heq, hP, hpost⟩
    rcases List.eq_nil_or_concat' post with rfl | ⟨post, y, rfl⟩
    · obtain ⟨-, hx⟩ := List.append_inj' heq rfl
      obtain rfl := List.singleton_inj.mp hx
      exact .inl hP
    · rw [← List.cons_append, ← List.append_assoc] at heq
      obtain ⟨rfl, hy⟩ := List.append_inj' heq rfl
      obtain rfl := List.singleton_inj.mp hy
      obtain ⟨hold, hlast⟩ := List.forall_mem_append.mp hpost
      exact .inr ⟨⟨pre, x, post, rfl, hP, hold⟩, hlast o (List.mem_singleton_self o)⟩
  · rintro (hP | ⟨⟨pre, x, post, rfl, hP, hpost⟩, hQ⟩)
    · exact ⟨tr, o, [], rfl, hP, by simp⟩
    · exact ⟨pre, x, post ++ [o], by simp, hP, List.forall_mem_append.mpr ⟨hpost, by simpa using hQ⟩⟩

end Since

end History
