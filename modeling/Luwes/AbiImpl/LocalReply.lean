import Luwes.AbiImpl.Process

/-!
# The reply of the filter itself (`abi_impl/internal.go`)

`SendLocalResponse` sets `localResponseSent` before it calls the host, and the host answers with hooks:
`on_http_filter_local_reply` first, and then the response hooks as the reply travels back through the
filters.  Some of them come while the host is still in the call, others after it; the flag is set for
all of them.

The three response hooks look at the flag and leave the plugin alone.  `on_http_filter_local_reply` does
not, so a plugin is told of its own reply exactly when that hook finds it (`OwnReply.unheard_iff`),
although `OnLocalReply` "is not called for replies generated by the filter's own
`SendLocalResponse`".
-/

namespace Luwes.AbiImpl

open LabelledRun

variable {ω : Type}

/-- The hook is one that a reply brings about. -/
def DymHttpFilterHandle.Hook.isReply : DymHttpFilterHandle.Hook → Bool
  | .responseHeaders _ | .responseBody _ | .responseTrailers | .localReply _ _ _ => true
  | _ => false

/-- A handle, whether `SendLocalResponse` has been called on it, and what hooks about the reply have made
it call. -/
structure OwnReply (ω : Type) where
  handle : DymHttpFilterHandle ω
  sent : Bool := false
  heard : List (DymHttpFilterHandle.Effect ω) := []

namespace OwnReply

/-- The handle of a new instance. -/
def new (hostPluginPtr : ℕ) : OwnReply ω := { handle := .fresh hostPluginPtr }

/-- What happens to the handle.  `own` is a hook about a reply that the plugin has sent; all others
are an `act`. -/
inductive Label (ω : Type)
  | act (a : Act ω)
  | own (k : DymHttpFilterHandle.Hook)

/-- The act is a call of `SendLocalResponse`. -/
def sends : Act ω → Bool
  | .call .sendLocalResponse => true
  | _ => false

/-- One step. -/
def step (s : OwnReply ω) : Label ω → Option (OwnReply ω)
  | .act a => some { s with handle := (s.handle.act a).2, sent := s.sent || sends a }
  | .own k =>
    if s.sent && k.isReply then
      some { s with handle := (s.handle.hook k).2, heard := s.heard ++ (s.handle.hook k).1 }
    else none

/-- The step is not `on_http_filter_local_reply`, for the plugin's own reply, on a handle that has the
plugin. -/
def Unnoticed (s : OwnReply ω) : Label ω → Prop
  | .own (.localReply _ _ _) => s.handle.plugin = none
  | _ => True

/-- The flag is set once a reply has been sent. -/
def Flagged (s : OwnReply ω) : Prop := s.sent = true → s.handle.localResponseSent = true

/-- No hook touches the flag or the plugin. -/
lemma hook_keeps (h : DymHttpFilterHandle ω) (k : DymHttpFilterHandle.Hook) :
    (h.hook k).2.localResponseSent = h.localResponseSent ∧ (h.hook k).2.plugin = h.plugin := by
  cases k with
  | destroy => cases hd : h.streamDestoried <;> simp [DymHttpFilterHandle.hook, hd]
  | streamComplete =>
      cases hp : h.plugin <;>
        simp [DymHttpFilterHandle.hook, DymHttpFilterHandle.onStreamComplete, hp]
  | scheduled taskID =>
      cases hs : h.scheduler <;> cases hc : h.streamCompleted <;>
        simp [DymHttpFilterHandle.hook, DymHttpFilterHandle.onScheduled, hs, hc]
  | hostEvent id ev =>
      cases hc : h.streamCompleted <;> cases ev <;>
        simp [DymHttpFilterHandle.hook, DymHttpFilterHandle.onHostEvent, HostEvent.kind,
          DymHttpFilterHandle.onHttpCalloutDone, DymHttpFilterHandle.onHttpStream, hc]
  | _ => exact ⟨rfl, rfl⟩

/-- Nothing clears the flag as long as the instance has the handle. -/
lemma act_localResponseSent (h : DymHttpFilterHandle ω) (a : Act ω) :
    (h.act a).2.localResponseSent = (h.localResponseSent || sends a) := by
  cases a with
  | created | destroyReturned =>
      simp [DymHttpFilterHandle.act, sends, DymHttpFilterHandle.onDestroyReturned]
  | call m =>
      cases m with
      | sendLocalResponse => simp [DymHttpFilterHandle.act, DymHttpFilterHandle.call, sends]
      | getScheduler ptr =>
          cases hs : h.scheduler <;>
            simp [DymHttpFilterHandle.act, DymHttpFilterHandle.call,
              DymHttpFilterHandle.getScheduler, sends, hs]
      | schedule task =>
          cases hs : h.scheduler <;>
            simp [DymHttpFilterHandle.act, DymHttpFilterHandle.call, DymHttpFilterHandle.schedule,
              sends, hs]
      | _ => exact (Bool.or_false _).symm
  | hook k =>
      simp only [sends, Bool.or_false]
      exact (hook_keeps h k).1

/-- **What a hook about a reply does**: the plugin hears of it if the hook is
`on_http_filter_local_reply`, and otherwise only as long as it has not replied itself. -/
lemma hook_isReply {s : OwnReply ω} {k : DymHttpFilterHandle.Hook} (hk : k.isReply = true)
    (hflag : s.handle.localResponseSent = true) :
    (s.handle.hook k).1 = [] ↔ s.Unnoticed (.own k) := by
  cases k with
  | responseHeaders | responseBody | responseTrailers =>
      cases hp : s.handle.plugin <;>
        simp [DymHttpFilterHandle.hook, DymHttpFilterHandle.callPlugin, Unnoticed, hflag, hp]
  | localReply =>
      cases hp : s.handle.plugin <;>
        simp [DymHttpFilterHandle.hook, DymHttpFilterHandle.callPlugin, Unnoticed, hp]
  | _ => simp [DymHttpFilterHandle.Hook.isReply] at hk

/-- **One step** keeps the flag, and makes the plugin hear of its own reply exactly when it is that
hook. -/
lemma step_spec {s s' : OwnReply ω} {l : Label ω} (hI : s.Flagged) (h : s.step l = some s') :
    s'.Flagged ∧ (s'.heard = [] ↔ s.heard = [] ∧ s.Unnoticed l) := by
  cases l with
  | act a =>
      obtain rfl := Option.some.inj h
      refine ⟨fun hsent => ?_, by simp [Unnoticed]⟩
      show (s.handle.act a).2.localResponseSent = true
      rw [act_localResponseSent]
      rcases (Bool.or_eq_true _ _).mp hsent with hold | hnew
      · rw [hI hold, Bool.true_or]
      · rw [hnew, Bool.or_true]
  | own k =>
      obtain ⟨⟨hsent, hk⟩, rfl⟩ : (s.sent = true ∧ k.isReply = true) ∧ _ = s' := by
        simpa [step] using h
      refine ⟨fun _ => ?_, ?_⟩
      · exact (hook_keeps s.handle k).1.trans (hI hsent)
      · rw [List.append_eq_nil_iff, hook_isReply hk (hI hsent)]

/-- **The exact condition.**  A plugin hears nothing of its own reply in exactly the runs in which
`on_http_filter_local_reply` does not find it. -/
theorem unheard_iff {hostPluginPtr : ℕ} {ls : List (Label ω)} {s : OwnReply ω}
    (hrun : run step (new hostPluginPtr) ls = some s) :
    s.heard = [] ↔ Along step Unnoticed (new hostPluginPtr) ls := by
  have hnew : (new hostPluginPtr : OwnReply ω).Flagged := fun h => by simp [new] at h
  rw [run_iff_along (I := Flagged) (P := fun s => s.heard = [])
    (fun _ _ _ hI h => (step_spec hI h).1) (fun _ _ _ hI h => (step_spec hI h).2) hnew hrun]
  exact and_iff_right rfl

/-! ## A host that reports every reply -/

/-- The act leaves the plugin on the handle. -/
def keepsPlugin : Act ω → Bool
  | .created _ | .destroyReturned => false
  | _ => true

/-- `on_http_filter_local_reply` for a reply of the plugin comes after `Create` has returned, and before the
plugin's `OnDestroy` has. -/
def Reported (ls : List (Label ω)) : Prop :=
  ∃ before plugin pre code details resetImminent post,
    ls = before ++ .act (.created (some plugin)) ::
        (pre ++ .own (.localReply code details resetImminent) :: post) ∧
      ∀ a, .act a ∈ pre → keepsPlugin a = true

lemma act_plugin (h : DymHttpFilterHandle ω) {a : Act ω} (ha : keepsPlugin a = true) :
    (h.act a).2.plugin = h.plugin := by
  cases a with
  | created | destroyReturned => cases ha
  | call m =>
      cases m with
      | getScheduler ptr =>
          cases hs : h.scheduler <;>
            simp [DymHttpFilterHandle.act, DymHttpFilterHandle.call, DymHttpFilterHandle.getScheduler, hs]
      | schedule task =>
          cases hs : h.scheduler <;>
            simp [DymHttpFilterHandle.act, DymHttpFilterHandle.call, DymHttpFilterHandle.schedule, hs]
      | _ => rfl
  | hook k => exact (hook_keeps h k).2

lemma run_plugin {s s' : OwnReply ω} {ls : List (Label ω)}
    (hkeeps : ∀ a, .act a ∈ ls → keepsPlugin a = true) (hrun : run step s ls = some s') :
    s'.handle.plugin = s.handle.plugin := by
  induction ls generalizing s with
  | nil =>
      obtain rfl := Option.some.inj hrun
      rfl
  | cons l ls ih =>
      obtain ⟨m, hm, hrest⟩ := run_cons_eq_some.mp hrun
      rw [ih (fun a ha => hkeeps a (List.mem_cons_of_mem _ ha)) hrest]
      cases l with
      | act a =>
          obtain rfl := Option.some.inj hm
          exact act_plugin s.handle (hkeeps a List.mem_cons_self)
      | own k =>
          obtain ⟨-, rfl⟩ : (s.sent = true ∧ k.isReply = true) ∧ _ = m := by simpa [step] using hm
          exact (hook_keeps s.handle k).2

/-- **If the host reports its replies**, a plugin hears nothing of its own in exactly the runs in which it has
sent none. -/
theorem unheard_iff_unsent {hostPluginPtr : ℕ} {ls : List (Label ω)} {s : OwnReply ω}
    (hrun : run step (new hostPluginPtr) ls = some s) (hreported : s.sent = true → Reported ls) :
    s.heard = [] ↔ s.sent = false := by
  constructor
  · intro hunheard
    by_contra hsent
    obtain ⟨before, plugin, pre, code, details, resetImminent, post, rfl, hkeeps⟩ :=
      hreported (by simpa using hsent)
    obtain ⟨m₁, -, hrun⟩ := run_append.mp hrun
    obtain ⟨m₂, hcreated, hrun⟩ := run_cons_eq_some.mp hrun
    obtain ⟨m₃, hpre, hrun⟩ := run_append.mp hrun
    obtain ⟨m₄, hhook, hpost⟩ := run_cons_eq_some.mp hrun
    have hplugin : m₃.handle.plugin = some plugin := by
      rw [run_plugin hkeeps hpre]
      obtain rfl := Option.some.inj hcreated
      rfl
    -- the hook finds the plugin, and what has been heard stays
    have hheard : m₄.heard ≠ [] := by
      obtain ⟨-, rfl⟩ : _ ∧ _ = m₄ := by simpa [step] using hhook
      simp [DymHttpFilterHandle.hook, DymHttpFilterHandle.callPlugin, hplugin]
    refine run_invariant (I := fun s => s.heard ≠ []) (fun s l s' hne hstep => ?_) hheard hpost hunheard
    cases l with
    | act a =>
        obtain rfl := Option.some.inj hstep
        exact hne
    | own k =>
        obtain ⟨-, rfl⟩ : _ ∧ _ = s' := by simpa [step] using hstep
        simp [hne]
  · intro hunsent
    have hor : s.heard = [] ∨ s.sent = true := by
      refine run_invariant (I := fun s => s.heard = [] ∨ s.sent = true) (fun s l s' h hstep => ?_)
        (.inl rfl) hrun
      cases l with
      | act a =>
          obtain rfl := Option.some.inj hstep
          exact h.imp_right fun hsent => by simp [hsent]
      | own k =>
          obtain ⟨⟨hsent, -⟩, rfl⟩ : (s.sent = true ∧ k.isReply = true) ∧ _ = s' := by
            simpa [step] using hstep
          exact .inr hsent
    exact hor.resolve_right (by simp [hunsent])

end OwnReply

end Luwes.AbiImpl
