import Luwes.AbiImpl.Manager
import Luwes.Lib.LabelledRun
import Luwes.Shared.Base

/-!
# Configurations and what is made from them (`abi_impl`, `sdk.go`)

A configuration is loaded by asking the constructor that is registered for its name for a factory, and
the factory makes the filters or loggers.  HTTP filters, network filters and access loggers each have
these hooks of their own.  The wrappers that hold the Go values are at the addresses the host is given,
and `unwrap` is a conversion of the address: it finds any wrapper, in the manager or not.

A constructor may return no factory and no error.  `on_http_filter_config_new` and
`on_network_filter_config_new` take that for a failure.  `on_access_logger_config_new` looks at the error
only, so the wrapper it hands out may hold a nil factory, and the first hook that uses it panics.  All
wrappers are usable in exactly the runs in which no constructor of an access logger does this
(`usable_iff`).
-/

namespace Luwes.AbiImpl

open LabelledRun

/-- The three kinds of configuration. -/
inductive ConfigKind
  | httpFilter
  | networkFilter
  | accessLogger
  deriving DecidableEq, Repr

/-- What a constructor returns; `factory` is `none` for nil, and `err` tells whether the error is not
nil. -/
structure Created (α : Type) where
  factory : Option α
  err : Bool

/-- `NewHttpFilterFactory`, `NewNetworkFilterFactory` and `NewAccessLoggerFactory`: the constructor that
is registered for the name, or an error. -/
def newFactory {α : Type} (registered : GoString → Bool) (name : GoString) (created : Created α) :
    Created α :=
  if registered name then created else { factory := none, err := true }

/-- The wrapper of a filter or a logger. -/
structure ConfigInstance (α : Type) where
  plugin : Option α
  destroyed : Bool := false

/-- The wrappers of a process, with the managers that know them.  `panicked` tells that a method was
called on a nil value. -/
structure Configs (α : Type) where
  wrappers : ConfigKind → ℕ → Option (Option α) := fun _ _ => none
  configManager : ConfigKind → Manager ℕ := fun _ => {}
  instances : ConfigKind → ℕ → Option (ConfigInstance α) := fun _ _ => none
  instanceManager : ConfigKind → Manager ℕ := fun _ => {}
  panicked : Bool := false

namespace Configs

variable {α : Type}

/-- A method is called on `receiver`, and then the hook goes on. -/
def callOn (s : Configs α) (receiver : Option α) (rest : Configs α → Configs α) : Configs α :=
  match receiver with
  | none => { s with panicked := true }
  | some _ => rest s

/-- A configuration wrapper is made at `ptr` and recorded. -/
def recordConfig (s : Configs α) (kind : ConfigKind) (ptr : ℕ) (factory : Option α) : Configs α :=
  { s with
    wrappers := Function.update s.wrappers kind
      (Function.update (s.wrappers kind) ptr (some factory))
    configManager := Function.update s.configManager kind ((s.configManager kind).record ptr ptr) }

/-- The wrapper of a filter or a logger is made at `ptr` and recorded. -/
def recordInstance (s : Configs α) (kind : ConfigKind) (ptr : ℕ) (plugin : Option α) : Configs α :=
  { s with
    instances := Function.update s.instances kind
      (Function.update (s.instances kind) ptr (some { plugin := plugin }))
    instanceManager := Function.update s.instanceManager kind
      ((s.instanceManager kind).record ptr ptr) }

/-- The wrapper at `ptr` is changed, and no longer in its manager. -/
def removeInstance (s : Configs α) (kind : ConfigKind) (ptr : ℕ) (x : ConfigInstance α) :
    Configs α :=
  { s with
    instances := Function.update s.instances kind (Function.update (s.instances kind) ptr (some x))
    instanceManager := Function.update s.instanceManager kind ((s.instanceManager kind).remove ptr) }

/-! ## Loading -/

/-- `on_http_filter_config_new`: the pointer that is returned, and the process after it. -/
def onHttpFilterConfigNew (s : Configs α) (created : Created α) (ptr : ℕ) : ℕ × Configs α :=
  if created.err || created.factory.isNone then (0, s)
  else (ptr, s.recordConfig .httpFilter ptr created.factory)

/-- `on_network_filter_config_new`. -/
def onNetworkFilterConfigNew (s : Configs α) (created : Created α) (ptr : ℕ) : ℕ × Configs α :=
  if created.err then (0, s)
  else if created.factory.isNone then (0, s)
  else (ptr, s.recordConfig .networkFilter ptr created.factory)

/-- `on_access_logger_config_new`. -/
def onAccessLoggerConfigNew (s : Configs α) (created : Created α) (ptr : ℕ) : ℕ × Configs α :=
  if created.err then (0, s) else (ptr, s.recordConfig .accessLogger ptr created.factory)

/-- The `config_new` hook of a kind, after the constructor has returned. -/
def onConfigNew (s : Configs α) : ConfigKind → Created α → ℕ → ℕ × Configs α
  | .httpFilter => s.onHttpFilterConfigNew
  | .networkFilter => s.onNetworkFilterConfigNew
  | .accessLogger => s.onAccessLoggerConfigNew

/-- The `config_destroy` hook of a kind; they are the same. -/
def onConfigDestroy (s : Configs α) (kind : ConfigKind) (ptr : ℕ) (factory : Option α) :
    Configs α :=
  s.callOn factory fun s =>
    { s with
      configManager := Function.update s.configManager kind ((s.configManager kind).remove ptr) }

/-! ## Filters and loggers -/

/-- `on_http_filter_new`: the wrapper is recorded also without a plugin. -/
def onHttpFilterNew (s : Configs α) (factory plugin : Option α) (ptr : ℕ) : Configs α :=
  s.callOn factory fun s => s.recordInstance .httpFilter ptr plugin

/-- `on_network_filter_new`. -/
def onNetworkFilterNew (s : Configs α) (factory plugin : Option α) (ptr : ℕ) : Configs α :=
  s.callOn factory fun s =>
    if plugin.isNone then s else s.recordInstance .networkFilter ptr plugin

/-- `on_access_logger_new`. -/
def onAccessLoggerNew (s : Configs α) (factory plugin : Option α) (ptr : ℕ) : Configs α :=
  s.callOn factory fun s =>
    if plugin.isNone then s else s.recordInstance .accessLogger ptr plugin

/-- The hook of a kind that makes a filter or a logger, `plugin` being what the factory returns. -/
def onInstanceNew (s : Configs α) : ConfigKind → Option α → Option α → ℕ → Configs α
  | .httpFilter => s.onHttpFilterNew
  | .networkFilter => s.onNetworkFilterNew
  | .accessLogger => s.onAccessLoggerNew

/-- What the host does with a filter or a logger.  `event` is any hook that calls the plugin, and
`on_access_logger_log`; `flush` is `on_access_logger_flush`, and says whether the logger is a flusher. -/
inductive InstanceHook
  | event
  | flush (flusher : Bool)
  | destroy

/-- The hooks of an HTTP filter. -/
def onHttpFilterHook (s : Configs α) (ptr : ℕ) (x : ConfigInstance α) : InstanceHook → Configs α
  | .event => if x.plugin.isNone then s else s.callOn x.plugin id
  | .flush _ => s
  | .destroy =>
    if x.destroyed then s
    else
      let rest := fun s : Configs α => s.removeInstance .httpFilter ptr ⟨none, true⟩
      if x.plugin.isNone then rest s else s.callOn x.plugin rest

/-- The hooks of a network filter. -/
def onNetworkFilterHook (s : Configs α) (ptr : ℕ) (x : ConfigInstance α) :
    InstanceHook → Configs α
  | .event => if x.plugin.isNone || x.destroyed then s else s.callOn x.plugin id
  | .flush _ => s
  | .destroy =>
    if x.destroyed then s
    else
      let rest := fun s : Configs α => s.removeInstance .networkFilter ptr ⟨x.plugin, true⟩
      if x.plugin.isNone then rest s else s.callOn x.plugin rest

/-- The hooks of an access logger: a nil logger is no flusher. -/
def onAccessLoggerHook (s : Configs α) (ptr : ℕ) (x : ConfigInstance α) :
    InstanceHook → Configs α
  | .event => s.callOn x.plugin id
  | .flush flusher => if x.plugin.isSome && flusher then s.callOn x.plugin id else s
  | .destroy => s.callOn x.plugin fun s => s.removeInstance .accessLogger ptr x

/-- The hooks of a kind. -/
def onInstanceHook (s : Configs α) :
    ConfigKind → ℕ → ConfigInstance α → InstanceHook → Configs α
  | .httpFilter => s.onHttpFilterHook
  | .networkFilter => s.onNetworkFilterHook
  | .accessLogger => s.onAccessLoggerHook

/-! ## Steps -/

/-- A call of a hook.  The constructor and the factories return what they like, and the allocator gives a
new wrapper any address but nil. -/
inductive Label (α : Type)
  | configNew (kind : ConfigKind) (name : GoString) (created : Created α) (ptr : ℕ)
  | configDestroy (kind : ConfigKind) (ptr : ℕ)
  | instanceNew (kind : ConfigKind) (configPtr : ℕ) (plugin : Option α) (ptr : ℕ)
  | instanceHook (kind : ConfigKind) (ptr : ℕ) (hook : InstanceHook)

/-- One step.  The host passes no pointer it has not been given, and a panic is the end. -/
def step (registered : GoString → Bool) (s : Configs α) (l : Label α) : Option (Configs α) :=
  if s.panicked then none
  else
    match l with
    | .configNew kind name created ptr =>
      if ptr = 0 then none else some (s.onConfigNew kind (newFactory registered name created) ptr).2
    | .configDestroy kind ptr => (s.wrappers kind ptr).map fun f => s.onConfigDestroy kind ptr f
    | .instanceNew kind configPtr plugin ptr =>
      if ptr = 0 then none
      else (s.wrappers kind configPtr).map fun f => s.onInstanceNew kind f plugin ptr
    | .instanceHook kind ptr hook =>
      (s.instances kind ptr).map fun x => s.onInstanceHook kind ptr x hook

/-! ## What is usable -/

/-- A `config_new` that returns a pointer has recorded a factory there, one that returns nil has recorded
nothing, and no hook calls a method on nil. -/
structure Usable (registered : GoString → Bool) (s : Configs α) (l : Label α) : Prop where
  recorded : ∀ kind name created ptr, l = .configNew kind name created ptr →
    ∀ r, r = s.onConfigNew kind (newFactory registered name created) ptr → r.1 ≠ 0 →
      (r.2.configManager kind).search r.1 = some r.1 ∧
        ∃ factory, r.2.wrappers kind r.1 = some (some factory)
  failed : ∀ kind name created ptr, l = .configNew kind name created ptr →
    ∀ r, r = s.onConfigNew kind (newFactory registered name created) ptr → r.1 = 0 →
      r.2.configManager = s.configManager
  called : ∀ s', s.step registered l = some s' → s'.panicked = false

/-- The step is not the loading of an access logger whose constructor returns neither a factory nor an
error. -/
def GivesFactory (registered : GoString → Bool) (_s : Configs α) : Label α → Prop
  | .configNew .accessLogger name created _ =>
    registered name = true → created.err = false → created.factory ≠ none
  | _ => True

/-- Every wrapper a hook may use holds a value, HTTP and network filters apart, whose hooks look. -/
structure Sound (s : Configs α) : Prop where
  factory : ∀ kind ptr, s.wrappers kind ptr ≠ some none
  logger : ∀ ptr x, s.instances .accessLogger ptr = some x → x.plugin ≠ none
  panicked : s.panicked = false

lemma sound_empty : ({} : Configs α).Sound where
  factory _ _ := by simp
  logger _ _ h := by simp at h
  panicked := rfl

section

variable {s : Configs α} {kind : ConfigKind} {ptr : ℕ}

lemma Sound.recordConfig (hI : s.Sound) {factory : Option α} (hf : factory ≠ none) :
    (s.recordConfig kind ptr factory).Sound := by
  refine ⟨fun kind' ptr' => ?_, hI.logger, hI.panicked⟩
  by_cases hk : kind' = kind
  · subst hk
    by_cases hp : ptr' = ptr
    · subst hp
      simpa [Configs.recordConfig] using hf
    · simpa [Configs.recordConfig, hp] using hI.factory kind' ptr'
  · simpa [Configs.recordConfig, hk] using hI.factory kind' ptr'

lemma update_logger {is : ConfigKind → ℕ → Option (ConfigInstance α)} {x : ConfigInstance α}
    (his : ∀ ptr x, is .accessLogger ptr = some x → x.plugin ≠ none)
    (hx : kind = .accessLogger → x.plugin ≠ none) (ptr' : ℕ) (x' : ConfigInstance α)
    (h : Function.update is kind (Function.update (is kind) ptr (some x)) .accessLogger ptr' = some x') :
    x'.plugin ≠ none := by
  by_cases hk : kind = .accessLogger
  · subst hk
    by_cases hp : ptr' = ptr
    · subst hp
      simp only [Function.update_self, Option.some.injEq] at h
      exact h ▸ hx rfl
    · simp only [Function.update_self, Function.update_of_ne hp] at h
      exact his ptr' x' h
  · rw [Function.update_of_ne (Ne.symm hk)] at h
    exact his ptr' x' h

lemma Sound.recordInstance (hI : s.Sound) {plugin : Option α}
    (hp : kind = .accessLogger → plugin ≠ none) : (s.recordInstance kind ptr plugin).Sound :=
  ⟨hI.factory, update_logger hI.logger hp, hI.panicked⟩

lemma Sound.removeInstance (hI : s.Sound) {x : ConfigInstance α}
    (hx : kind = .accessLogger → x.plugin ≠ none) : (s.removeInstance kind ptr x).Sound :=
  ⟨hI.factory, update_logger hI.logger hx, hI.panicked⟩

lemma callOn_of_ne {receiver : Option α} (h : receiver ≠ none) (rest : Configs α → Configs α) :
    s.callOn receiver rest = rest s := by
  cases receiver with
  | none => exact absurd rfl h
  | some _ => rfl

lemma Sound.onConfigDestroy (hI : s.Sound) {factory : Option α} (hf : factory ≠ none) :
    (s.onConfigDestroy kind ptr factory).Sound := by
  rw [Configs.onConfigDestroy, callOn_of_ne hf]
  exact ⟨hI.factory, hI.logger, hI.panicked⟩

/-- A filter or logger is made by a factory; only `on_http_filter_new` records it without looking. -/
lemma Sound.onInstanceNew (hI : s.Sound) {factory plugin : Option α} (hf : factory ≠ none) :
    (s.onInstanceNew kind factory plugin ptr).Sound := by
  cases kind with
  | httpFilter =>
      simp only [Configs.onInstanceNew, onHttpFilterNew, callOn_of_ne hf]
      exact hI.recordInstance (by simp)
  | networkFilter =>
      simp only [Configs.onInstanceNew, onNetworkFilterNew, callOn_of_ne hf]
      split
      · exact hI
      · exact hI.recordInstance (by simp)
  | accessLogger =>
      simp only [Configs.onInstanceNew, onAccessLoggerNew, callOn_of_ne hf]
      split
      · exact hI
      · next hp => exact hI.recordInstance fun _ hnone => hp (by simp [hnone])

lemma Sound.onInstanceHook (hI : s.Sound) {x : ConfigInstance α}
    (hx : kind = .accessLogger → x.plugin ≠ none) (hook : InstanceHook) :
    (s.onInstanceHook kind ptr x hook).Sound := by
  obtain ⟨plugin, destroyed⟩ := x
  cases kind with
  | httpFilter =>
      cases hook <;> cases plugin <;> cases destroyed <;> first
        | exact hI
        | exact hI.removeInstance (by simp)
  | networkFilter =>
      cases hook <;> cases plugin <;> cases destroyed <;> first
        | exact hI
        | exact hI.removeInstance (by simp)
  | accessLogger =>
      have hp : plugin ≠ none := hx rfl
      cases hook with
      | event =>
          rw [Configs.onInstanceHook, onAccessLoggerHook, callOn_of_ne hp]
          exact hI
      | flush flusher =>
          simp only [Configs.onInstanceHook, onAccessLoggerHook, callOn_of_ne hp]
          split
          · exact hI
          · exact hI
      | destroy =>
          simp only [Configs.onInstanceHook, onAccessLoggerHook, callOn_of_ne hp]
          exact hI.removeInstance fun _ => hp

lemma onConfigNew_cases (created : Created α) :
    s.onConfigNew kind created ptr = (0, s) ∨
      created.err = false ∧ (kind ≠ .accessLogger → created.factory ≠ none) ∧
        s.onConfigNew kind created ptr = (ptr, s.recordConfig kind ptr created.factory) := by
  obtain ⟨factory, err⟩ := created
  cases kind <;> cases factory <;> cases err <;>
    simp [Configs.onConfigNew, onHttpFilterConfigNew, onNetworkFilterConfigNew,
      onAccessLoggerConfigNew]

variable {registered : GoString → Bool} {l : Label α} {s' : Configs α}

lemma onConfigNew_failed {created : Created α} (hptr : ptr ≠ 0)
    (h : (s.onConfigNew kind created ptr).1 = 0) : (s.onConfigNew kind created ptr).2 = s := by
  rcases s.onConfigNew_cases created with hnew | ⟨-, -, hnew⟩
  · rw [hnew]
  · rw [hnew] at h
    exact absurd h hptr

/-- The factory a `config_new` records is not nil, if no constructor of an access logger makes it so. -/
lemma factory_ne_none {name : GoString} {created : Created α}
    (hg : GivesFactory registered s (.configNew kind name created ptr))
    (herr : (newFactory registered name created).err = false)
    (hother : kind ≠ .accessLogger → (newFactory registered name created).factory ≠ none) :
    (newFactory registered name created).factory ≠ none := by
  cases hr : registered name with
  | false => simp [newFactory, hr] at herr
  | true =>
      simp only [newFactory, hr, if_true] at herr hother ⊢
      cases kind with
      | httpFilter => exact hother (by simp)
      | networkFilter => exact hother (by simp)
      | accessLogger => exact hg hr herr

/-- **Every hook keeps the wrappers sound**, the loading of an access logger without a factory apart. -/
lemma Sound.step (hI : s.Sound) (hg : GivesFactory registered s l)
    (h : s.step registered l = some s') : s'.Sound := by
  simp only [Configs.step, hI.panicked, Bool.false_eq_true, if_false] at h
  cases l with
  | configNew kind name created ptr =>
      simp only [Option.ite_none_left_eq_some, Option.some.injEq] at h
      obtain ⟨-, rfl⟩ := h
      rcases s.onConfigNew_cases (newFactory registered name created) with hnew | ⟨herr, hother, hnew⟩
      · rw [hnew]
        exact hI
      · rw [hnew]
        exact hI.recordConfig (factory_ne_none hg herr hother)
  | configDestroy kind ptr =>
      obtain ⟨factory, hw, rfl⟩ := Option.map_eq_some_iff.mp h
      exact hI.onConfigDestroy fun hf => hI.factory kind ptr (hf ▸ hw)
  | instanceNew kind configPtr plugin ptr =>
      simp only [Option.ite_none_left_eq_some] at h
      obtain ⟨factory, hw, rfl⟩ := Option.map_eq_some_iff.mp h.2
      exact hI.onInstanceNew fun hf => hI.factory kind configPtr (hf ▸ hw)
  | instanceHook kind ptr hook =>
      obtain ⟨x, hx, rfl⟩ := Option.map_eq_some_iff.mp h
      refine hI.onInstanceHook (fun hk => ?_) hook
      subst hk
      exact hI.logger ptr x hx

lemma Sound.usable_step (hI : s.Sound) (h : s.step registered l = some s') :
    s.Usable registered l ↔ GivesFactory registered s l := by
  constructor
  · intro hu
    cases l with
    | configNew kind name created ptr =>
        cases kind with
        | httpFilter => trivial
        | networkFilter => trivial
        | accessLogger =>
            intro hr herr hnone
            simp only [Configs.step, hI.panicked, Bool.false_eq_true, if_false,
              Option.ite_none_left_eq_some] at h
            have hnew : s.onConfigNew .accessLogger (newFactory registered name created) ptr =
                (ptr, s.recordConfig .accessLogger ptr none) := by
              simp [Configs.onConfigNew, onAccessLoggerConfigNew, newFactory, hr, herr, hnone]
            obtain ⟨-, factory, hw⟩ := hu.recorded _ _ _ _ rfl _ hnew.symm h.1
            simp [Configs.recordConfig] at hw
    | configDestroy kind ptr => trivial
    | instanceNew kind configPtr plugin ptr => trivial
    | instanceHook kind ptr hook => trivial
  · intro hg
    refine ⟨?_, ?_, fun s'' hs'' => (hI.step hg hs'').panicked⟩
    · rintro kind name created ptr rfl r rfl hne
      rcases s.onConfigNew_cases (newFactory registered name created) with hnew | ⟨herr, hother, hnew⟩
      · rw [hnew] at hne
        exact absurd rfl hne
      · rw [hnew]
        obtain ⟨factory, hf⟩ := Option.ne_none_iff_exists'.mp (factory_ne_none hg herr hother)
        exact ⟨by simp [Configs.recordConfig], factory, by simp [Configs.recordConfig, hf]⟩
    · rintro kind name created ptr rfl r rfl hzero
      simp only [Configs.step, hI.panicked, Bool.false_eq_true, if_false,
        Option.ite_none_left_eq_some] at h
      rw [onConfigNew_failed h.1 hzero]

/-- **Every wrapper is usable in exactly the runs in which no constructor of an access logger returns
neither a factory nor an error.** -/
theorem usable_iff {ls : List (Label α)} (hrun : run (step registered) {} ls = some s') :
    Along (step registered) (Usable registered) {} ls ↔
      Along (step registered) (GivesFactory registered) {} ls :=
  along_iff (fun _ _ _ hI hg h => hI.step hg h) (fun _ _ _ hI h => hI.usable_step h) sound_empty hrun

/-- An HTTP filter and an access logger, with factories, are loaded and used. -/
theorem usable_iff_bothKinds :
    Along (step (α := Unit) fun _ => true) (Usable fun _ => true) {}
        [.configNew .httpFilter [] ⟨some (), false⟩ 8, .configNew .accessLogger [] ⟨some (), false⟩ 16,
          .instanceNew .accessLogger 16 (some ()) 24, .instanceHook .accessLogger 24 .event,
          .instanceHook .accessLogger 24 .destroy, .configDestroy .accessLogger 16] ↔
      Along (step (α := Unit) fun _ => true) (GivesFactory fun _ => true) {}
        [.configNew .httpFilter [] ⟨some (), false⟩ 8, .configNew .accessLogger [] ⟨some (), false⟩ 16,
          .instanceNew .accessLogger 16 (some ()) 24, .instanceHook .accessLogger 24 .event,
          .instanceHook .accessLogger 24 .destroy, .configDestroy .accessLogger 16] :=
  usable_iff rfl

/-- An access logger is loaded without a factory.  The host gets a pointer, and the first logger that it
asks for is the end of the process. -/
theorem nilFactory_recorded :
    ¬ Along (step (α := Unit) fun _ => true) (Usable fun _ => true) {}
        [.configNew .accessLogger [] ⟨none, false⟩ 8, .instanceNew .accessLogger 8 none 16] ∧
      ∃ s' : Configs Unit,
        run (step fun _ => true) {}
            [.configNew .accessLogger [] ⟨none, false⟩ 8, .instanceNew .accessLogger 8 none 16] =
          some s' ∧
        s'.panicked = true := by
  refine ⟨fun h => ?_, _, rfl, rfl⟩
  obtain ⟨-, factory, hw⟩ := h.1.recorded _ _ _ _ rfl _ rfl (by decide)
  cases hw

end

end Configs

end Luwes.AbiImpl
