import Luwes.Sahl.Straight
import Mathlib.Logic.Function.Basic

/-!
# Filters in a row

A request goes through the filters of its listener in order.  The host calls `OnRequestHeaders` of a filter
when all those before it have let the headers go on: with `HeadersStatusContinue`, with `ContinueRequest`, or
with a later body or trailers status.  A local reply terminates the stream, and the host calls no further
filter.  Everything else, and the order in which the filters that are called move, is left open.

Filters that decide at once are called up to the first one that answers, and that one alone replies
(`answered_in_order`).
-/

namespace Luwes.Sahl

open LabelledRun

/-- The filter has sent a local reply. -/
def State.replied (s : State) : Bool := (hostView s.trace).any HostEvent.isLocalResponse

/-- The host goes on to the next filter. -/
def State.letsOn (s : State) : Bool := s.released && !s.replied

/-- The event is the first of a request. -/
def State.Label.isRequestHeaders : State.Label → Bool
  | .requestHeaders _ => true
  | _ => false

/-- The filters of a listener, by their places. -/
abbrev FilterChain := ℕ → State

namespace FilterChain

/-- The filters that have just been created for a request. -/
def new (defs : ℕ → FilterDef) : FilterChain := fun j => State.new j (defs j)

/-- The filter at a place moves. -/
def step (fs : FilterChain) : ℕ × State.Label → Option FilterChain
  | (j, l) =>
    if l.isRequestHeaders && !(List.range j).all fun i => (fs i).letsOn then none
    else ((fs j).step l).map (Function.update fs j)

end FilterChain

namespace State

variable {r : ℕ} {cs : List UserCall} {s s' : State}

lemma phase_of_step {l : Label} (hstep : s.step l = some s') (hl : l.isRequestHeaders = false)
    (hphase : s.phase = .awaitingHeaders) : s'.phase = .awaitingHeaders := by
  cases step_moves hstep with
  | headersDeferred | headersHandled => cases hl
  | bodyHandled _ hp | bodyBuffered _ hp | bodyPassed _ _ _ hp | trailersPassed _ hp =>
      rw [hphase] at hp
      cases hp
  | workerActs _ _ _ _ _ _ _ _ _ hact | goroutineActs _ _ _ _ _ _ hact =>
      exact hact.sameHost.phase.trans hphase
  | callbackFinished => exact (finish_sameHost _ _).phase.trans hphase
  | _ => exact hphase

lemma hostView_step {l : Label} (hstep : s.step l = some s') : hostView s.trace <+: hostView s'.trace := by
  obtain ⟨obs, htr, -⟩ := (step_moves hstep).emits
  rw [htr, hostView_append]
  exact List.prefix_append _ _

lemma any_view (r : ℕ) (cs : List UserCall) :
    (view r cs).any HostEvent.isLocalResponse = answers r cs := by
  have hcount := (view_answers r cs).1
  cases hanswers : answers r cs with
  | false =>
      rw [hanswers] at hcount
      exact List.any_eq_false.mpr (List.countP_eq_zero.mp hcount)
  | true =>
      rw [hanswers] at hcount
      obtain ⟨e, he, hsends⟩ := List.countP_pos_iff.mp (by rw [hcount]; exact Nat.one_pos)
      exact List.any_eq_true.mpr ⟨e, he, hsends⟩

lemma Deciding.view_step (h : s'.Deciding r cs) {l : Label} (hstep : s.step l = some s')
    (hview : hostView s.trace = view r cs) : hostView s'.trace = view r cs := by
  have hgrown : view r cs <+: hostView s'.trace := hview ▸ hostView_step hstep
  exact h.view_begins.eq_of_length_le hgrown.length_le

/-- The filter that has let the request go on has not answered it. -/
lemma Deciding.of_letsOn (h : s.Deciding r cs) (hon : s.letsOn = true) :
    answers r cs = false ∧ hostView s.trace = view r cs := by
  obtain ⟨hreleased, hreplied⟩ : s.released = true ∧ s.replied = false := by simpa [letsOn] using hon
  cases h.stage with
  | before _ _ _ hheld | running _ _ _ _ _ _ _ _ hheld =>
      rw [hheld] at hreleased
      cases hreleased
  | answered _ _ hview =>
      refine ⟨?_, hview⟩
      cases hanswers : answers r cs with
      | false => rfl
      | true =>
          rw [replied, hview, any_view, hanswers] at hreplied
          cases hreplied

/-- A filter that has sent a local reply has been called, and its handler answers. -/
lemma Deciding.of_replied (h : s.Deciding r cs) (hreplied : s.replied = true) :
    s.phase ≠ .awaitingHeaders ∧ answers r cs = true ∧
      (hostView s.trace).countP HostEvent.isLocalResponse = 1 := by
  have hbegins := h.view_begins
  obtain ⟨e, he, hsends⟩ := List.any_eq_true.mp hreplied
  have hanswers : answers r cs = true := by
    rw [← any_view]
    exact List.any_eq_true.mpr ⟨e, hbegins.mem he, hsends⟩
  refine ⟨fun hphase => ?_, hanswers, Nat.le_antisymm ?_ (List.countP_pos_iff.mpr ⟨e, he, hsends⟩)⟩
  · cases h.stage with
    | before _ _ hview => simp [hview] at he
    | running _ _ _ hne | answered hne => exact hne hphase
  · calc (hostView s.trace).countP HostEvent.isLocalResponse
        ≤ (view r cs).countP HostEvent.isLocalResponse := hbegins.sublist.countP_le
      _ = 1 := by rw [(view_answers r cs).1, hanswers]; rfl

end State

namespace FilterChain

variable {calls : ℕ → List UserCall} {fs fs' : FilterChain}

/-- Every filter before one that has been called has let the request go on. -/
structure InOrder (calls : ℕ → List UserCall) (fs : FilterChain) : Prop where
  deciding : ∀ j, (fs j).Deciding j (calls j)
  before : ∀ j, (fs j).phase ≠ .awaitingHeaders → ∀ i < j,
    answers i (calls i) = false ∧ hostView (fs i).trace = view i (calls i)

lemma InOrder.step (h : InOrder calls fs) {x : ℕ × State.Label} (hstep : fs.step x = some fs') :
    InOrder calls fs' := by
  obtain ⟨j, l⟩ := x
  rw [FilterChain.step] at hstep
  split_ifs at hstep with hguard
  obtain ⟨s', hs', rfl⟩ := Option.map_eq_some_iff.mp hstep
  have hj : s'.Deciding j (calls j) := (h.deciding j).step hs'
  have hdeciding (k : ℕ) : (Function.update fs j s' k).Deciding k (calls k) := by
    by_cases hk : k = j
    · subst hk
      rwa [Function.update_self]
    · rw [Function.update_of_ne hk]
      exact h.deciding k
  -- what holds of the filters before `k` is not undone by the step
  have hkept {i : ℕ} (hi : answers i (calls i) = false ∧ hostView (fs i).trace = view i (calls i)) :
      answers i (calls i) = false ∧ hostView (Function.update fs j s' i).trace = view i (calls i) := by
    by_cases hij : i = j
    · subst hij
      rw [Function.update_self]
      exact ⟨hi.1, hj.view_step hs' hi.2⟩
    · rwa [Function.update_of_ne hij]
  refine ⟨hdeciding, fun k hk i hi => hkept ?_⟩
  by_cases hkj : k = j
  · subst hkj
    rw [Function.update_self] at hk
    by_cases hphase : (fs k).phase = .awaitingHeaders
    · cases hl : l.isRequestHeaders with
      | false => exact absurd (State.phase_of_step hs' hl hphase) hk
      | true =>
          have hall : (List.range k).all (fun i => (fs i).letsOn) = true := by simpa [hl] using hguard
          exact (h.deciding i).of_letsOn (List.all_eq_true.mp hall i (List.mem_range.mpr hi))
    · exact h.before k hphase i hi
  · rw [Function.update_of_ne hkj] at hk
    exact h.before k hk i hi

lemma inOrder_run {ls : List (ℕ × State.Label)}
    (hrun : run step (new fun j => { handler := straight (calls j) }) ls = some fs) : InOrder calls fs :=
  run_invariant (fun _ _ _ h hs => h.step hs)
    ⟨fun j => State.deciding_new j (calls j), fun _ hne => absurd rfl hne⟩ hrun

/-- **The first filter that answers is the last that is called.**  The filters before one that has been
called have let the request go on and have done all that they are going to do; a filter that has sent a
local reply has sent one only, and the filters behind it are never called. -/
theorem answered_in_order {ls : List (ℕ × State.Label)}
    (hrun : run step (new fun j => { handler := straight (calls j) }) ls = some fs) (j : ℕ) :
    ((fs j).phase ≠ .awaitingHeaders → ∀ i < j,
        answers i (calls i) = false ∧ hostView (fs i).trace = view i (calls i)) ∧
      ((fs j).replied = true → answers j (calls j) = true ∧
        (hostView (fs j).trace).countP HostEvent.isLocalResponse = 1 ∧
          ∀ k, j ≠ k → (fs k).replied = false ∧ (j < k → (fs k).phase = .awaitingHeaders)) := by
  have h := inOrder_run hrun
  refine ⟨h.before j, fun hreplied => ?_⟩
  obtain ⟨hcalled, hanswers, hcount⟩ := (h.deciding j).of_replied hreplied
  have hbehind (k : ℕ) (hjk : j < k) : (fs k).phase = .awaitingHeaders := by
    by_contra hk
    rw [(h.before k hk j hjk).1] at hanswers
    cases hanswers
  refine ⟨hanswers, hcount, fun k hne => ⟨?_, hbehind k⟩⟩
  by_contra hk
  obtain ⟨hkcalled, hkanswers, -⟩ := (h.deciding k).of_replied (Bool.not_eq_false _ ▸ hk)
  rcases Nat.lt_or_gt_of_ne hne with hlt | hgt
  · exact hkcalled (hbehind k hlt)
  · rw [(h.before j hcalled k hgt).1] at hkanswers
    cases hkanswers

/-- The second of several filters answers. -/
theorem answered_in_order_second : ∃ fs,
    run step (new fun j => { handler := straight (if j = 1 then [.send 200 []] else []) })
        [(0, .requestHeaders true), (0, .worker { }), (1, .requestHeaders true), (1, .worker { }),
          (1, .worker { })] = some fs ∧
      (fs 0).replied = false ∧ (hostView (fs 1).trace).countP HostEvent.isLocalResponse = 1 ∧
        (fs 2).phase = .awaitingHeaders := by
  obtain ⟨fs, hrun⟩ : ∃ fs,
      run step (new fun j => { handler := straight (if j = 1 then [.send 200 []] else []) })
        [(0, .requestHeaders true), (0, .worker { }), (1, .requestHeaders true), (1, .worker { }),
          (1, .worker { })] = some fs := ⟨_, rfl⟩
  have hreplied : (fs 1).replied = true := by
    cases hrun
    decide
  obtain ⟨-, hsecond⟩ := answered_in_order hrun 1
  obtain ⟨-, hcount, hothers⟩ := hsecond hreplied
  exact ⟨fs, hrun, (hothers 0 (by decide)).1, hcount, (hothers 2 (by decide)).2 (by decide)⟩

end FilterChain

end Luwes.Sahl
