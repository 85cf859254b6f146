import Luwes.AbiImpl.LocalReply
import Luwes.Sahl.Shape

/-!
# The details of a local reply (`sahl/filter.go`, `sahl/writer.go`)

`LocalReplyDetails` is "non-empty only when Envoy generated a local reply".  What fills it is
`OnLocalReply`, and a sahl filter that has called `Send` is on a handle like any other plugin: the host
reports the reply with the detail that `Send` has given it, `"sahl"`, the handle passes the hook on,
and the Writer takes the detail for one of Envoy's.

`ReplyStream` is a sahl filter together with its handle, on a stream without replies of anyone else.
-/

namespace Luwes.Sahl

open LabelledRun
open AbiImpl (DymHttpFilterHandle OwnReply)

/-- The call sends no local response with another detail than the one of `Send`. -/
def HandleCall.OwnDetail : HandleCall → Prop
  | .sendLocalResponse _ detail => detail = ascii "sahl"
  | _ => True

/-- The same of an event. -/
def Obs.OwnDetail : Obs → Prop
  | .call c => c.OwnDetail
  | _ => True

/-- A local response is sent. -/
def Obs.sends : Obs → Bool
  | .call (.sendLocalResponse _ _) => true
  | _ => false

/-- A local response is sent with this detail. -/
def Obs.sendsWith (detail : GoString) : Obs → Bool
  | .call (.sendLocalResponse _ d) => d = detail
  | _ => false

lemma Obs.sends_of_sendsWith {o : Obs} {detail : GoString} (h : o.sendsWith detail = true) :
    o.sends = true := by
  cases o with
  | call c =>
      cases c with
      | sendLocalResponse => rfl
      | _ => cases h
  | _ => cases h

/-! ## The detail of what is sent -/

lemma ownDetail_quiet {o : Obs} (h : o.isQuiet = true) : o.OwnDetail := by
  cases o with
  | call c =>
      cases c with
      | sendLocalResponse => simp [Obs.isQuiet, HandleCall.isQuiet] at h
      | _ => trivial
  | _ => trivial

lemma ownDetail_calls {cs : List HandleCall} (h : ∀ c ∈ cs, c.OwnDetail) :
    ∀ o ∈ cs.map Obs.call, o.OwnDetail := by
  intro o ho
  obtain ⟨c, hc, rfl⟩ := List.mem_map.mp ho
  exact h c hc

namespace Writer

lemma counterCall_ownDetail (m : Queued CounterMut) : (counterCall m).OwnDetail := by
  unfold counterCall
  split <;> trivial

lemma flush_ownDetail (w : Writer) (b : Bool) : ∀ c ∈ w.flush b, c.OwnDetail := by
  intro c hc
  unfold flush at hc
  split at hc
  · obtain rfl := List.mem_singleton.mp hc
    rfl
  · split at hc
    · simp at hc
    · simp only [List.mem_append, List.mem_map] at hc
      rcases hc with (((⟨m, -, rfl⟩ | ⟨m, -, rfl⟩) | hc) | ⟨m, -, rfl⟩) | hc
      · trivial
      · trivial
      · split at hc <;> simp_all [HandleCall.OwnDetail]
      · exact counterCall_ownDetail m
      · split at hc <;> simp_all [HandleCall.OwnDetail]

lemma userCall_ownDetail (w : Writer) (id : CallId) (c : UserCall) :
    ∀ call ∈ (w.userCall id c).2, call.OwnDetail := by
  have h := w.userCall_called id c
  generalize w.userCall id c = r at h ⊢
  cases h <;> simp [HandleCall.OwnDetail]

lemma flushResponseMutations_ownDetail (w : Writer) :
    ∀ c ∈ w.flushResponseMutations.2, c.OwnDetail := by
  intro c hc
  simp only [flushResponseMutations, List.mem_append, List.mem_map] at hc
  rcases hc with ⟨m, -, rfl⟩ | ⟨m, -, rfl⟩
  · trivial
  · exact counterCall_ownDetail m

end Writer

/-- Every local response in the record has the detail of `Send`. -/
def SendsOwn (tr : List Obs) : Prop := ∀ o ∈ tr, o.OwnDetail

lemma sendsOwn_append {tr obs : List Obs} (h : SendsOwn tr) (hobs : ∀ o ∈ obs, o.OwnDetail) :
    SendsOwn (tr ++ obs) := fun o ho => (List.mem_append.mp ho).elim (h o) (hobs o)

lemma Ledger.Quietly.sendsOwn {g g' : Ledger} (h : g.Quietly g') (hg : SendsOwn g.trace) :
    SendsOwn g'.trace := by
  obtain ⟨obs, htr, hobs⟩ := h.trace
  rw [htr]
  exact sendsOwn_append hg fun o ho => ownDetail_quiet (hobs o ho)

namespace State

lemma Changes.sendsOwn {s : State} {l : Label} {g : Ledger} (h : Changes s l g)
    (hI : SendsOwn s.trace) : SendsOwn g.trace := by
  cases h with
  | quiet _ hq => exact hq.sendsOwn hI
  | acquired _ _ hq => exact hq.sendsOwn hI
  | called who c =>
      refine sendsOwn_append hI fun o ho => ?_
      rcases List.mem_cons.mp ho with rfl | ho
      · trivial
      · exact ownDetail_calls (Writer.userCall_ownDetail _ _ c) o ho
  | flushed b _ h₁ h₂ =>
      refine h₂.sendsOwn (sendsOwn_append (h₁.sendsOwn hI) fun o ho => ?_)
      rcases List.mem_cons.mp ho with rfl | ho
      · trivial
      · exact ownDetail_calls (Writer.flush_ownDetail _ b) o ho
  | responseFlushed _ _ _ hq =>
      exact hq.sendsOwn (sendsOwn_append hI
        (ownDetail_calls (Writer.flushResponseMutations_ownDetail _)))

lemma finish_localReplyDetails (s : State) (cb : Callback) :
    (s.finish cb).writer.localReplyDetails = s.writer.localReplyDetails := by
  obtain ⟨fn, obs, heq, -⟩ := finish_eq s cb
  rw [heq]
  rfl

lemma Acts.localReplyDetails {s s' : State} {who : Actor} {a : Act} {code : Code}
    (h : Acts s who a code s') :
    s'.writer.localReplyDetails = s.writer.localReplyDetails := by
  cases h with
  | calls c k rs =>
      have hcalled := s.writer.userCall_called ⟨s.request, s.seq⟩ c
      have hkept : ∀ r, s.writer.Called ⟨s.request, s.seq⟩ c r →
          r.1.localReplyDetails = s.writer.localReplyDetails := by
        intro r hr
        cases hr <;> rfl
      exact hkept _ hcalled
  | _ => rfl

/-- Only `OnLocalReply` fills the details; `OnRequestHeaders` takes an empty Writer. -/
lemma Moves.localReplyDetails {s s' : State} {l : Label} (h : Moves s l s')
    (hl : ∀ details, l ≠ .localReply details) :
    s'.writer.localReplyDetails = s.writer.localReplyDetails ∨
      s.phase = .awaitingHeaders ∧ s'.writer.localReplyDetails = [] := by
  cases h with
  | headersDeferred _ _ hphase | headersHandled _ _ hphase => exact .inr ⟨hphase, rfl⟩
  | localReply details => exact absurd rfl (hl details)
  | calloutReturned _ _ _ init | streamReturned _ _ _ init => cases init <;> exact .inl rfl
  | workerActs _ _ _ _ _ _ _ _ _ hact | goroutineActs _ _ _ _ _ _ hact =>
      exact .inl hact.localReplyDetails
  | callbackFinished => exact .inl (finish_localReplyDetails _ _)
  | _ => exact .inl rfl

end State

/-! ## A filter and its handle -/

/-- A sahl filter with the handle it is on. -/
structure ReplyStream where
  handle : DymHttpFilterHandle Unit
  filter : State

namespace ReplyStream

/-- `Create` has just returned. -/
def new (r : ℕ) (d : FilterDef) : ReplyStream where
  handle := ((DymHttpFilterHandle.fresh r).act (.created (some ()))).2
  filter := .new r d

/-- A step of the filter, or `on_http_filter_local_reply` for a reply the filter has sent. -/
inductive Label
  | filter (l : State.Label)
  | localReply (responseCode : UInt32) (details : UnsafeEnvoyBuffer) (resetImminent : Bool)

/-- The filter's step from `f` to `f'` has called `SendLocalResponse`. -/
def sent (f f' : State) : Bool := (f'.trace.drop f.trace.length).any Obs.sends

/-- What a step of the filter from `f` to `f'` does to the handle. -/
def follow (h : DymHttpFilterHandle Unit) (f f' : State) (l : State.Label) :
    DymHttpFilterHandle Unit :=
  let h := if sent f f' then (h.call .sendLocalResponse).2 else h
  match l with
  | .streamComplete => (h.hook .streamComplete).2
  | .destroy => (h.hook .destroy).2.onDestroyReturned
  | _ => h

/-- One step.  The host reports the reply with the detail it has been given, and the filter's
`OnLocalReply` is called if the handle calls its plugin. -/
def step (s : ReplyStream) : Label → Option ReplyStream
  | .filter (.localReply _) => none
  | .filter l => (s.filter.step l).map fun f => ⟨follow s.handle s.filter f l, f⟩
  | .localReply responseCode details resetImminent =>
    if s.filter.trace.any (Obs.sendsWith details.bytes) then
      match (s.handle.hook (.localReply responseCode details resetImminent)).1 with
      | [] => some s
      | _ :: _ => (s.filter.step (.localReply details)).map fun f => ⟨s.handle, f⟩
    else none

/-- The step is not `on_http_filter_local_reply` on a handle that has the plugin. -/
def Unnoticed (s : ReplyStream) : Label → Prop
  | .localReply _ _ _ => s.handle.plugin = none
  | _ => True

/-- The handle has the filter until it is destroyed, and the details are those of no reply before there
is one. -/
structure Sound (s : ReplyStream) : Prop where
  shape : s.filter.Shape
  plugin : s.handle.plugin.isSome = !s.filter.destroyed
  sendsOwn : SendsOwn s.filter.trace
  fresh : s.filter.phase = .awaitingHeaders → s.filter.writer.localReplyDetails = []

lemma sound_new (r : ℕ) (d : FilterDef) : (new r d).Sound where
  shape := State.shape_new r d
  plugin := rfl
  sendsOwn := by simp [SendsOwn, new, State.new]
  fresh _ := rfl

lemma follow_plugin (h : DymHttpFilterHandle Unit) (f f' : State) (l : State.Label) :
    (follow h f f' l).plugin = if l.isDestroy then none else h.plugin := by
  have hsent : (if sent f f' then (h.call .sendLocalResponse).2 else h).plugin = h.plugin := by
    split <;> rfl
  have hcomplete : ∀ h : DymHttpFilterHandle Unit,
      (h.hook .streamComplete).2.plugin = h.plugin := by
    intro h
    cases hp : h.plugin <;> simp [DymHttpFilterHandle.hook, DymHttpFilterHandle.onStreamComplete, hp]
  cases l with
  | streamComplete => exact (hcomplete _).trans hsent
  | destroy => rfl
  | _ => exact hsent

/-- What a filter's step means for the details: nothing. -/
lemma filter_spec {s s' : ReplyStream} {l : State.Label} (hI : s.Sound)
    (h : s.step (.filter l) = some s') :
    s'.Sound ∧ (s'.filter.writer.localReplyDetails = [] ↔ s.filter.writer.localReplyDetails = []) := by
  have hl : ∀ details, l ≠ .localReply details := by
    rintro details rfl
    simp [step] at h
  obtain ⟨f, hf, rfl⟩ : ∃ f, s.filter.step l = some f ∧ ⟨follow s.handle s.filter f l, f⟩ = s' := by
    cases l with
    | localReply details => exact absurd rfl (hl details)
    | _ => simpa [step] using h
  have hm := State.step_moves hf
  have hdetails := hm.localReplyDetails hl
  refine ⟨⟨State.shape_step hI.shape hf, ?_, hm.changes.sendsOwn hI.sendsOwn, ?_⟩, ?_⟩
  · show (follow s.handle s.filter f l).plugin.isSome = !f.destroyed
    rw [follow_plugin, hm.destroyed_eq]
    cases hd : l.isDestroy with
    | true => simp
    | false => simpa using hI.plugin
  · intro hphase
    have hold := hI.fresh (hm.phase_awaiting hphase)
    rcases hdetails with heq | ⟨-, hempty⟩
    · exact heq.trans hold
    · exact hempty
  · rcases hdetails with heq | ⟨hphase, hempty⟩
    · show f.writer.localReplyDetails = [] ↔ _
      rw [heq]
    · exact iff_of_true hempty (hI.fresh hphase)

/-- A reply of the filter comes from a request it has a Writer for, and has the detail of `Send`. -/
lemma Sound.sent {s : ReplyStream} (hI : s.Sound) {detail : GoString}
    (h : s.filter.trace.any (Obs.sendsWith detail) = true) :
    detail = ascii "sahl" ∧ s.filter.phase ≠ .awaitingHeaders := by
  obtain ⟨o, ho, hsends⟩ := List.any_eq_true.mp h
  cases o with
  | call c =>
      cases c with
      | sendLocalResponse r d =>
          obtain rfl : d = detail := by simpa [Obs.sendsWith] using hsends
          refine ⟨hI.sendsOwn _ ho, fun hphase => ?_⟩
          simpa [Obs.isPrelude] using (hI.shape.fresh hphase).prelude _ ho
      | _ => simp [Obs.sendsWith] at hsends
  | _ => simp [Obs.sendsWith] at hsends

lemma onLocalReply_details {f : State} (hwriter : f.hasWriter = true) {details : UnsafeEnvoyBuffer}
    (hdetails : details.bytes ≠ []) : (f.onLocalReply details).writer.localReplyDetails ≠ [] := by
  obtain ⟨ptr⟩ := details
  cases ptr with
  | none => simp [UnsafeEnvoyBuffer.bytes] at hdetails
  | some bs =>
      have hbs : bs ≠ [] := hdetails
      have hlen := List.length_pos_iff.mpr hbs
      simp [State.onLocalReply, State.ret, State.emit, State.setWriter, Ledger.emit,
        Ledger.setWriter, UnsafeEnvoyBuffer.len, UnsafeEnvoyBuffer.toString, hwriter, hlen, hbs]

/-- The hook for the filter's own reply fills the details exactly when it finds the filter. -/
lemma localReply_spec {s s' : ReplyStream} {code : UInt32} {details : UnsafeEnvoyBuffer}
    {resetImminent : Bool} (hI : s.Sound)
    (h : s.step (.localReply code details resetImminent) = some s') :
    s'.Sound ∧ (s'.filter.writer.localReplyDetails = [] ↔
      s.filter.writer.localReplyDetails = [] ∧ s.handle.plugin = none) := by
  obtain ⟨hsent, h⟩ : s.filter.trace.any (Obs.sendsWith details.bytes) = true ∧ _ = some s' := by
    simpa only [step, Option.ite_none_right_eq_some] using h
  obtain ⟨hdetail, hphase⟩ := hI.sent hsent
  cases hp : s.handle.plugin with
  | none =>
      obtain rfl : s = s' := by
        simpa [DymHttpFilterHandle.hook, DymHttpFilterHandle.callPlugin, hp] using h
      exact ⟨hI, by simp⟩
  | some plugin =>
      have hlive : s.filter.destroyed = false := by simpa [hp] using hI.plugin
      have hwriter : s.filter.hasWriter = true := by rw [hI.shape.hasWriter hphase, hlive, Bool.not_false]
      have hstep : s.filter.step (.localReply details) = some (s.filter.onLocalReply details) := by
        simp [State.step, hlive]
      obtain rfl : ⟨s.handle, s.filter.onLocalReply details⟩ = s' := by
        simpa [DymHttpFilterHandle.hook, DymHttpFilterHandle.callPlugin, hp, hstep] using h
      have hm := State.step_moves hstep
      refine ⟨⟨State.shape_step hI.shape hstep, ?_, hm.changes.sendsOwn hI.sendsOwn, ?_⟩, ?_⟩
      · show s.handle.plugin.isSome = !(s.filter.onLocalReply details).destroyed
        rw [hm.destroyed_eq, hI.plugin]
        simp [State.Label.isDestroy]
      · intro hphase'
        exact absurd (hm.phase_awaiting hphase') hphase
      · refine iff_of_false (onLocalReply_details hwriter ?_) (by simp)
        rw [hdetail]
        decide

/-- **One step** leaves the details empty exactly when it is not that hook. -/
lemma step_spec {s s' : ReplyStream} {l : Label} (hI : s.Sound) (h : s.step l = some s') :
    s'.Sound ∧ (s'.filter.writer.localReplyDetails = [] ↔
      s.filter.writer.localReplyDetails = [] ∧ s.Unnoticed l) := by
  cases l with
  | filter l =>
      obtain ⟨hI', hiff⟩ := filter_spec hI h
      exact ⟨hI', by simp [hiff, Unnoticed]⟩
  | localReply => exact localReply_spec hI h

end ReplyStream

/-! ## Whole runs -/

/-- **The exact condition.**  A plugin hears nothing of the reply it has sent, and a sahl Writer has no
details of it, in exactly the runs in which `on_http_filter_local_reply` for that reply does not find
the plugin on its handle. -/
theorem ownReply_silent_iff {ω : Type} {hostPluginPtr r : ℕ} {d : FilterDef}
    {acts : List (OwnReply.Label ω)} {o : OwnReply ω} {ls : List ReplyStream.Label} {s : ReplyStream}
    (hacts : run OwnReply.step (OwnReply.new hostPluginPtr) acts = some o)
    (hrun : run ReplyStream.step (ReplyStream.new r d) ls = some s) :
    (o.heard = [] ↔ Along OwnReply.step OwnReply.Unnoticed (OwnReply.new hostPluginPtr) acts) ∧
      (s.filter.writer.localReplyDetails = [] ↔
        Along ReplyStream.step ReplyStream.Unnoticed (ReplyStream.new r d) ls) := by
  refine ⟨OwnReply.unheard_iff hacts, ?_⟩
  rw [run_iff_along (I := ReplyStream.Sound) (P := fun s => s.filter.writer.localReplyDetails = [])
    (fun _ _ _ hI h => (ReplyStream.step_spec hI h).1)
    (fun _ _ _ hI h => (ReplyStream.step_spec hI h).2) (ReplyStream.sound_new r d) hrun]
  exact and_iff_right rfl

/-- `on_http_filter_local_reply` for a reply of the filter comes before the filter is destroyed. -/
def ReplyStream.Reported (ls : List ReplyStream.Label) : Prop :=
  ∃ pre code details resetImminent post, ls = pre ++ .localReply code details resetImminent :: post ∧
    .filter .destroy ∉ pre

namespace ReplyStream

variable {r : ℕ} {d : FilterDef} {ls : List Label} {s : ReplyStream}

lemma sound_run (hrun : run step (new r d) ls = some s) : s.Sound :=
  run_invariant (fun _ _ _ hI h => (step_spec hI h).1) (sound_new r d) hrun

lemma step_follows {s s' : ReplyStream} {l : Label} (h : s.step l = some s') :
    s'.filter = s.filter ∨
      ∃ l', s.filter.step l' = some s'.filter ∧ (l'.isDestroy = true → l = .filter .destroy) := by
  cases l with
  | filter l =>
      have hstep : ∃ f, s.filter.step l = some f ∧ ⟨follow s.handle s.filter f l, f⟩ = s' := by
        cases l with
        | localReply details => cases h
        | _ => simpa [step] using h
      obtain ⟨f, hf, rfl⟩ := hstep
      refine .inr ⟨l, hf, fun hl => ?_⟩
      cases l with
      | destroy => rfl
      | _ => cases hl
  | localReply code details resetImminent =>
      obtain ⟨-, h⟩ : s.filter.trace.any (Obs.sendsWith details.bytes) = true ∧ _ = some s' := by
        simpa only [step, Option.ite_none_right_eq_some] using h
      split at h
      · obtain rfl := Option.some.inj h
        exact .inl rfl
      · obtain ⟨f, hf, rfl⟩ := Option.map_eq_some_iff.mp h
        exact .inr ⟨_, hf, fun hl => by cases hl⟩

/-- A filter that has not been destroyed is on its handle. -/
lemma plugin_run (hrun : run step (new r d) ls = some s) (hlive : .filter .destroy ∉ ls) :
    s.handle.plugin ≠ none := by
  have hnew : .filter .destroy ∉ ([] : List Label) → (new r d).filter.destroyed = false := fun _ => rfl
  have hdestroyed : s.filter.destroyed = false := by
    refine run_invariant_labels (I := fun ls s => .filter .destroy ∉ ls → s.filter.destroyed = false)
      (fun ls s l s' h hstep hl => ?_) hnew hrun hlive
    obtain ⟨hls, hl⟩ : .filter .destroy ∉ ls ∧ .filter .destroy ≠ l := by simpa using hl
    rcases step_follows hstep with heq | ⟨l', hl', hdestroy⟩
    · rw [heq]
      exact h hls
    · rw [(State.step_moves hl').destroyed_eq, h hls, Bool.false_or]
      by_contra hd
      exact hl (hdestroy (by simpa using hd)).symm
  have hplugin := (sound_run hrun).plugin
  rw [hdestroyed] at hplugin
  intro hnone
  simp [hnone] at hplugin

lemma step_sends {s s' : ReplyStream} {l : Label} (h : s.step l = some s')
    (hsends : s.filter.trace.any Obs.sends = true) : s'.filter.trace.any Obs.sends = true := by
  rcases step_follows h with heq | ⟨l', hl', -⟩
  · rwa [heq]
  · obtain ⟨obs, htr, -⟩ := (State.step_moves hl').emits
    rw [htr, List.any_append, hsends, Bool.true_or]

/-- **If the host reports its replies**, the Writer of a filter has no details of them in exactly the runs in
which it has sent none. -/
lemma details_iff_unsent (hrun : run step (new r d) ls = some s)
    (hreported : s.filter.trace.any Obs.sends = true → Reported ls) :
    s.filter.writer.localReplyDetails = [] ↔ s.filter.trace.any Obs.sends = false := by
  constructor
  · intro hempty
    by_contra hsends
    obtain ⟨pre, code, details, resetImminent, post, rfl, hlive⟩ := hreported (by simpa using hsends)
    obtain ⟨m, hpre, hrun⟩ := run_append.mp hrun
    obtain ⟨m', hhook, hpost⟩ := run_cons_eq_some.mp hrun
    obtain ⟨hsound, hiff⟩ := localReply_spec (sound_run hpre) hhook
    have hfilled : m'.Sound ∧ m'.filter.writer.localReplyDetails ≠ [] :=
      ⟨hsound, fun h => plugin_run hpre hlive (hiff.mp h).2⟩
    refine (run_invariant (I := fun s => s.Sound ∧ s.filter.writer.localReplyDetails ≠ [])
      (fun s l s' h hstep => ?_) hfilled hpost).2 hempty
    obtain ⟨hsound, hiff⟩ := step_spec h.1 hstep
    exact ⟨hsound, fun h' => h.2 (hiff.mp h').1⟩
  · intro hunsent
    have hor : s.Sound ∧ (s.filter.writer.localReplyDetails = [] ∨ s.filter.trace.any Obs.sends = true) := by
      refine run_invariant (I := fun s => s.Sound ∧
        (s.filter.writer.localReplyDetails = [] ∨ s.filter.trace.any Obs.sends = true))
        (fun s l s' h hstep => ?_) ⟨sound_new r d, .inl rfl⟩ hrun
      obtain ⟨hsound, hiff⟩ := step_spec h.1 hstep
      refine ⟨hsound, ?_⟩
      rcases h.2 with hempty | hsends
      · cases l with
        | filter l => exact .inl (hiff.mpr ⟨hempty, trivial⟩)
        | localReply code details resetImminent =>
            obtain ⟨hsent, -⟩ : s.filter.trace.any (Obs.sendsWith details.bytes) = true ∧ _ = some s' := by
              simpa only [step, Option.ite_none_right_eq_some] using hstep
            obtain ⟨o, ho, hsends⟩ := List.any_eq_true.mp hsent
            exact .inr (step_sends hstep (List.any_eq_true.mpr ⟨o, ho, Obs.sends_of_sendsWith hsends⟩))
      · exact .inr (step_sends hstep hsends)
    exact hor.2.resolve_right (by simp [hunsent])

end ReplyStream

/-- **A host that reports every reply**, as it does when `sendLocalReply` is invoked, leaves no run with a
reply silent: a plugin hears nothing of its own replies, and a sahl Writer has no details of them, in exactly
the runs in which none has been sent. -/
theorem ownReply_silent_iff_unsent {ω : Type} {hostPluginPtr r : ℕ} {d : FilterDef}
    {acts : List (OwnReply.Label ω)} {o : OwnReply ω} {ls : List ReplyStream.Label} {s : ReplyStream}
    (hacts : run OwnReply.step (OwnReply.new hostPluginPtr) acts = some o)
    (hrun : run ReplyStream.step (ReplyStream.new r d) ls = some s)
    (hreported : o.sent = true → OwnReply.Reported acts)
    (hreported' : s.filter.trace.any Obs.sends = true → ReplyStream.Reported ls) :
    (o.heard = [] ↔ o.sent = false) ∧
      (s.filter.writer.localReplyDetails = [] ↔ s.filter.trace.any Obs.sends = false) :=
  ⟨OwnReply.unheard_iff_unsent hacts hreported, ReplyStream.details_iff_unsent hrun hreported'⟩

/-- A handler that rejects every request. -/
def rejectAll : FilterDef := { handler := .call (.send 403 []) .ret }

/-- The handler sends its reply, and the host reports it from inside the call. -/
def rejected : List ReplyStream.Label :=
  [.filter (.requestHeaders true), .filter (.worker {}),
    .localReply 403 ⟨some (ascii "sahl")⟩ false]

/-- The host reports it as it should. -/
example : ReplyStream.Reported rejected :=
  ⟨[.filter (.requestHeaders true), .filter (.worker {})], 403, ⟨some (ascii "sahl")⟩, false, [], rfl,
    by simp⟩

/-- A plugin sends a reply and hears of it. -/
def sendsAndHears : List (OwnReply.Label Unit) :=
  [.act (.created (some ())), .act (.call .sendLocalResponse), .own (.localReply 403 ⟨none⟩ false)]

/-- `OnLocalReply` is called for the reply of the filter itself, and the Writer keeps its detail. -/
theorem ownReply_heard :
    (¬ ∀ (ω : Type) (hostPluginPtr : ℕ) (ls : List (OwnReply.Label ω)) (s : OwnReply ω),
      run OwnReply.step (OwnReply.new hostPluginPtr) ls = some s → s.heard = []) ∧
    ¬ ∀ (r : ℕ) (d : FilterDef) (ls : List ReplyStream.Label) (s : ReplyStream),
      run ReplyStream.step (ReplyStream.new r d) ls = some s →
        s.filter.writer.localReplyDetails = [] := by
  constructor
  · intro h
    have hheard := h Unit 0 sendsAndHears _ rfl
    exact absurd hheard (by decide)
  · intro h
    have hdetails := h 0 rejectAll rejected _ rfl
    exact absurd hdetails (by decide)

/-- A plugin sends a reply, whose headers come back through it. -/
def sendsAndResponds : List (OwnReply.Label Unit) :=
  [.act (.created (some ())), .act (.call .sendLocalResponse), .own (.responseHeaders true)]

/-- A request that passes. -/
def passed : List ReplyStream.Label :=
  [.filter (.requestHeaders true), .filter (.worker {}), .filter .streamComplete, .filter .destroy]

/-- The condition evaluated on a plugin that sends a reply and is called by a response hook for it, without
`on_http_filter_local_reply`, and on a request that the handler does not reject. -/
theorem ownReply_silent_iff_passed :
    ∃ (o : OwnReply Unit) (s : ReplyStream),
      run OwnReply.step (OwnReply.new 0) sendsAndResponds = some o ∧
      run ReplyStream.step (ReplyStream.new 0 { handler := .ret }) passed = some s ∧
      (o.heard = [] ↔ Along OwnReply.step OwnReply.Unnoticed (OwnReply.new 0) sendsAndResponds) ∧
      (s.filter.writer.localReplyDetails = [] ↔
        Along ReplyStream.step ReplyStream.Unnoticed (ReplyStream.new 0 { handler := .ret }) passed) :=
  ⟨_, _, rfl, rfl, ownReply_silent_iff rfl rfl⟩

end Luwes.Sahl
