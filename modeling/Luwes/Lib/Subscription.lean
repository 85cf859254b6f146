import Mathlib.Data.List.Basic

/-!
# Subscriptions to a growing sequence

A publisher offers each new element of a sequence to a subscriber whose queue has room for `cap`
elements; an element for which there is no room is not queued, and the publisher goes on.  The subscriber
takes elements from the queue.

Whatever a subscriber has got and still has in its queue is, in order, some of what has been published
(`Follows`), all of it exactly when nothing was missed (`Follows.eq_iff`).
-/

/-- The subscriber's side: its queue, what it has taken from it, and how many elements it has missed. -/
structure Subscription (α : Type*) where
  queue : List α := []
  got : List α := []
  missed : ℕ := 0
  deriving DecidableEq, Repr

namespace Subscription

variable {α : Type*} {cap : ℕ} {published : List α} {s : Subscription α}

/-- An element is published. -/
def offer (cap : ℕ) (s : Subscription α) (x : α) : Subscription α :=
  if s.queue.length < cap then { s with queue := s.queue ++ [x] } else { s with missed := s.missed + 1 }

/-- The subscriber takes the oldest element of its queue. -/
def take (s : Subscription α) : Option (Subscription α) :=
  match s.queue with
  | [] => none
  | x :: queue => some { s with queue := queue, got := s.got ++ [x] }

lemma missed_take {s' : Subscription α} (htake : s.take = some s') : s'.missed = s.missed := by
  rw [take] at htake
  split at htake
  · simp at htake
  · exact Option.some.inj htake ▸ rfl

/-- The subscriber has followed the sequence, but for what it has missed. -/
structure Follows (cap : ℕ) (published : List α) (s : Subscription α) : Prop where
  room : s.queue.length ≤ cap
  sublist : (s.got ++ s.queue).Sublist published
  count : (s.got ++ s.queue).length + s.missed = published.length

lemma follows_new (cap : ℕ) : ({} : Subscription α).Follows cap [] :=
  ⟨Nat.zero_le cap, List.Sublist.refl _, rfl⟩

/-- **Publishing** never waits for the subscriber. -/
lemma Follows.offer (h : s.Follows cap published) (x : α) :
    (s.offer cap x).Follows cap (published ++ [x]) := by
  have hcount := h.count
  unfold Subscription.offer
  split
  next hroom =>
    refine ⟨by simpa using Nat.succ_le_of_lt hroom, ?_, ?_⟩
    · rw [← List.append_assoc]
      exact h.sublist.append (List.Sublist.refl [x])
    · simp only [List.length_append, List.length_singleton] at hcount ⊢
      omega
  next =>
    refine ⟨h.room, h.sublist.trans (List.sublist_append_left _ _), ?_⟩
    simp only [List.length_append, List.length_singleton] at hcount ⊢
    omega

/-- Taking an element moves it, and no more. -/
lemma Follows.take {s' : Subscription α} (h : s.Follows cap published) (htake : s.take = some s') :
    s'.Follows cap published := by
  obtain ⟨queue, got, missed⟩ := s
  cases queue with
  | nil => simp [Subscription.take] at htake
  | cons x queue =>
      obtain rfl : _ = s' := by simpa [Subscription.take] using htake
      refine ⟨Nat.le_of_succ_le h.room, ?_, ?_⟩
      · simpa using h.sublist
      · simpa using h.count

/-- The subscriber has everything exactly when it has missed nothing. -/
lemma Follows.eq_iff (h : s.Follows cap published) :
    s.got ++ s.queue = published ↔ s.missed = 0 := by
  constructor
  · intro heq
    have hcount := h.count
    rw [heq] at hcount
    omega
  · intro hmissed
    refine h.sublist.eq_of_length ?_
    have hcount := h.count
    omega

end Subscription
