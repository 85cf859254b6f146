import Luwes.AbiImpl.HandlePool

/-!
# Shared data

`SetData` records a wrapper in `sharedDataManager`, remembers its address in the handle, and stores the
address, in decimal, in the stream's dynamic metadata.  `GetData` reads the address back and looks it up.
`on_http_filter_stream_complete` takes the addresses the handle remembers out of the manager, and nothing
else does; `reset` forgets them.

* What a filter sets after its `stream_complete`, or without one, stays in the manager for good.  So
  nothing is left of an instance in exactly the runs in which each of its `SetData` calls is followed by a
  `stream_complete` (`leavesNothing_iff`).
* The metadata outlives the wrapper.  Once a setter has completed, `GetData` is right exactly when nothing
  is recorded at the old address (`getsOwn_iff`); it may be the same wrapper, set too late to be cleared, or
  the wrapper of another stream at an address that has come round.
-/

namespace Luwes.AbiImpl.Process

open LabelledRun

variable {ω : Type}

/-! ## What is promised -/

/-- The last `SetData` of a key on a stream. -/
def latest (p : Process ω) (stream : ℕ) (key : GoString) : Option (SetRecord ω) :=
  (p.sets.filter fun r => r.stream = stream && r.key = key).getLast?

/-- What `GetData` is to return: the value set last on this stream, until its setter completes. -/
def expected (p : Process ω) (stream : ℕ) (key : GoString) : Option ω :=
  match p.latest stream key with
  | none => none
  | some r => if (p.instances r.setter).completed then none else r.value

/-- A call of `GetData` returns the stream's own latest data. -/
def GetsOwn (p : Process ω) : Label ω → Prop
  | .act i (.call (.getData key)) =>
    ∀ h, p.handles.read (p.instances i).handle = some h →
      p.getData h.hostPluginPtr key = p.expected (p.instances i).stream key
  | _ => True

/-- A call of `GetData` that finds a setter that has completed finds nothing at the setter's address: what
was set there, by anyone, has been cleared, or is nil. -/
def AddressCleared (p : Process ω) : Label ω → Prop
  | .act i (.call (.getData key)) =>
    ∀ r, p.latest (p.instances i).stream key = some r → (p.instances r.setter).completed = true →
      ∀ r' ∈ p.sets, r'.pointer = r.pointer → r'.value ≠ none → r'.cleared = true
  | _ => True

/-- Nothing in the manager is instance `i`'s.  Everything that another instance has set is there, unless
that instance has itself completed and cleared it. -/
structure LeavesNothing (p : Process ω) (i : ℕ) : Prop where
  own : ∀ a w, p.sharedDataManager.search a = some w → w.setter ≠ i
  others : ∀ r ∈ p.sets, r.setter ≠ i →
    ((p.instances r.setter).completed = true → r.cleared = false) →
      p.sharedDataManager.search r.pointer = some ⟨r.value, r.setter⟩

/-! ## The invariant -/

/-- The addresses instance `i` has set data at. -/
def pointersOf (p : Process ω) (i : ℕ) : List ℕ :=
  (p.sets.filter (·.setter = i)).map SetRecord.pointer

/-- The manager, the handles' lists and the metadata belong to the record of the `SetData` calls. -/
structure Shares (p : Process ω) : Prop where
  manager : ∀ a w, p.sharedDataManager.search a = some w ↔
    ∃ r ∈ p.sets, r.cleared = false ∧ r.pointer = a ∧ w = ⟨r.value, r.setter⟩
  recorded : ∀ i, (p.replayOf i).2.hostPluginPtr = i ∧
    (p.replayOf i).2.recordedSharedData = p.pointersOf i
  /-- What one instance remembers is nobody else's. -/
  apart : ∀ i a, p.held i = some a → ∀ r ∈ p.sets, r.cleared = false →
    r.pointer ∈ p.pointersOf i → r.setter = i
  completed : ∀ r ∈ p.sets, r.cleared = true → (p.instances r.setter).completed = true
  started : ∀ r ∈ p.sets, (p.instances r.setter).phase ≠ .idle
  pointer : ∀ r ∈ p.sets, r.pointer < 2 ^ 64
  metadata : ∀ stream key, p.metadata stream key =
    (p.latest stream key).map fun r => formatUint r.pointer

lemma shares_new : ({} : Process ω).Shares where
  manager a w := by simp
  recorded i := ⟨rfl, rfl⟩
  apart i a h := by simp [held, Phase.holds] at h
  completed r h := by simp at h
  started r h := by simp at h
  pointer r h := by simp at h
  metadata stream key := rfl

/-- An address survives the string. -/
lemma parseUint_formatUint {v : ℕ} (hv : v < 2 ^ 64) : parseUint (formatUint v) = some v := by
  rw [parseUint, formatUint, Decimal.parse_format]
  simpa [Option.filter] using hv

lemma getData_eq {p : Process ω} (hp : p.Shares) (i : ℕ) (key : GoString) :
    p.getData i key =
      match p.latest (p.instances i).stream key with
      | none => none
      | some r => (p.sharedDataManager.search r.pointer).bind SharedDataWrapper.data := by
  rw [getData, hp.metadata]
  cases hlatest : p.latest (p.instances i).stream key with
  | none => rfl
  | some r =>
      have hmem : r ∈ p.sets := by
        have := List.mem_of_getLast? hlatest
        exact List.mem_of_mem_filter this
      simp only [Option.map_some, parseUint_formatUint (hp.pointer r hmem)]
      cases p.sharedDataManager.search r.pointer <;> rfl

/-! ## A step on a handle -/

/-- The record after a `stream_complete` of instance `i`. -/
def clearBy (i : ℕ) (found : Bool) (r : SetRecord ω) : SetRecord ω :=
  if r.setter = i && found then r.clear else r

@[simp] lemma clearBy_setter (i : ℕ) (found : Bool) (r : SetRecord ω) :
    (clearBy i found r).setter = r.setter := by
  unfold clearBy
  split <;> rfl

@[simp] lemma clearBy_stream (i : ℕ) (found : Bool) (r : SetRecord ω) :
    (clearBy i found r).stream = r.stream := by
  unfold clearBy
  split <;> rfl

@[simp] lemma clearBy_key (i : ℕ) (found : Bool) (r : SetRecord ω) :
    (clearBy i found r).key = r.key := by
  unfold clearBy
  split <;> rfl

@[simp] lemma clearBy_value (i : ℕ) (found : Bool) (r : SetRecord ω) :
    (clearBy i found r).value = r.value := by
  unfold clearBy
  split <;> rfl

@[simp] lemma clearBy_pointer (i : ℕ) (found : Bool) (r : SetRecord ω) :
    (clearBy i found r).pointer = r.pointer := by
  unfold clearBy
  split <;> rfl

lemma clearBy_cleared (i : ℕ) (found : Bool) (r : SetRecord ω) :
    (clearBy i found r).cleared = (r.cleared || (r.setter = i && found)) := by
  unfold clearBy
  split <;> simp_all [SetRecord.clear]

lemma pointersOf_clearBy {p q : Process ω} {i : ℕ} {found : Bool}
    (hq : q.sets = p.sets.map (clearBy i found)) (j : ℕ) : q.pointersOf j = p.pointersOf j := by
  have hsetter : (fun r : SetRecord ω => decide (r.setter = j)) ∘ clearBy i found =
      fun r => decide (r.setter = j) := funext fun r => by simp
  have hpointer : SetRecord.pointer ∘ clearBy (ω := ω) i found = SetRecord.pointer :=
    funext fun r => clearBy_pointer i found r
  rw [pointersOf, hq, List.filter_map, List.map_map, hsetter, hpointer, pointersOf]

lemma latest_clearBy {p q : Process ω} {i : ℕ} {found : Bool}
    (hq : q.sets = p.sets.map (clearBy i found)) (stream : ℕ) (key : GoString) :
    q.latest stream key = (p.latest stream key).map (clearBy i found) := by
  have hmatch : (fun r : SetRecord ω => decide (r.stream = stream) && decide (r.key = key)) ∘
      clearBy i found = fun r => decide (r.stream = stream) && decide (r.key = key) :=
    funext fun r => by simp
  rw [latest, hq, List.filter_map, List.getLast?_map, hmatch, latest]

/-- The address a step adds to its handle's list. -/
def recordedBy : Act ω → List ℕ
  | .call m => m.recorded
  | _ => []

lemma act_frame (h : DymHttpFilterHandle ω) (a : Act ω) :
    (h.act a).2.hostPluginPtr = h.hostPluginPtr ∧
      (h.act a).2.recordedSharedData = h.recordedSharedData ++ recordedBy a := by
  cases a with
  | call m => exact ⟨(h.call_frame m).1, (h.call_frame m).2.2⟩
  | hook k =>
      refine ⟨(h.hook_frame k).1, ?_⟩
      show (h.hook k).2.recordedSharedData = h.recordedSharedData ++ []
      rw [List.append_nil]
      exact (h.hook_frame k).2.2
  | _ => exact ⟨rfl, (List.append_nil _).symm⟩

lemma mem_clearData {h : DymHttpFilterHandle ω} {pointer : ℕ} :
    pointer ∈ h.clearData ↔ h.plugin.isSome = true ∧ pointer ∈ h.recordedSharedData := by
  cases hp : h.plugin <;> simp [DymHttpFilterHandle.clearData, hp]

section Step

variable {p q : Process ω} {i : ℕ} {h : DymHttpFilterHandle ω} {a : Act ω}

lemma Acted.life (hq : Acted p q i h a) (j : ℕ) :
    ((p.instances j).completed = true → (q.instances j).completed = true) ∧
      ((p.instances j).phase ≠ .idle → (q.instances j).phase ≠ .idle) := by
  by_cases hji : j = i
  · subst hji
    refine ⟨fun hc => ?_, fun _ => hq.advances.started⟩
    rw [hq.self]
    simp only [nextInstance]
    split
    · rfl
    · exact hc
  · rw [hq.ne j hji]
    exact ⟨id, id⟩

lemma Acted.recorded (hq : Acted p q i h a) (hs : p.Shares)
    (hsets : ∀ j, q.pointersOf j = p.pointersOf j ++ if j = i then recordedBy a else []) (j : ℕ) :
    (q.replayOf j).2.hostPluginPtr = j ∧
      (q.replayOf j).2.recordedSharedData = q.pointersOf j := by
  rw [hsets]
  by_cases hji : j = i
  · subst hji
    rw [hq.replayOf_self.2, (act_frame h a).1, (act_frame h a).2, if_pos rfl, ← hq.replay]
    exact ⟨(hs.recorded j).1, by rw [(hs.recorded j).2]⟩
  · rw [(hq.replayOf_ne hji).2, if_neg hji, List.append_nil]
    exact hs.recorded j

/-- The steps that have to do with shared data. -/
def shares : Act ω → Bool
  | .call (.setData _ _ _) => true
  | .hook .streamComplete => true
  | _ => false

lemma around_quiet (p : Process ω) (hquiet : shares a = false) :
    (p.around i h a).sets = p.sets ∧
      (p.around i h a).sharedDataManager = p.sharedDataManager ∧
      (p.around i h a).metadata = p.metadata ∧ recordedBy a = [] := by
  cases a with
  | created plugin => exact ⟨rfl, rfl, rfl, rfl⟩
  | destroyReturned => exact ⟨rfl, rfl, rfl, rfl⟩
  | call m => cases m <;> first | exact ⟨rfl, rfl, rfl, rfl⟩ | simp [shares] at hquiet
  | hook k =>
      cases k with
      | streamComplete => simp [shares] at hquiet
      | destroy => cases hd : h.streamDestoried <;> simp [around, hd, setInstance, recordedBy]
      | _ => exact ⟨rfl, rfl, rfl, rfl⟩

namespace Shares

/-- Where nothing is set or removed, only the instances have to be looked at. -/
lemma unchanged (hs : p.Shares) (hsets : q.sets = p.sets)
    (hmanager : q.sharedDataManager = p.sharedDataManager) (hmetadata : q.metadata = p.metadata)
    (hrecorded : ∀ j, (q.replayOf j).2.hostPluginPtr = j ∧
      (q.replayOf j).2.recordedSharedData = p.pointersOf j)
    (hapart : ∀ j a, q.held j = some a → ∀ r ∈ p.sets, r.cleared = false →
      r.pointer ∈ p.pointersOf j → r.setter = j)
    (hcompleted : ∀ r ∈ p.sets, r.cleared = true → (q.instances r.setter).completed = true)
    (hstarted : ∀ r ∈ p.sets, (q.instances r.setter).phase ≠ .idle) : q.Shares := by
  have hpointers : ∀ j, q.pointersOf j = p.pointersOf j := fun j => by
    rw [pointersOf, hsets, pointersOf]
  constructor
  · rw [hmanager, hsets]
    exact hs.manager
  · intro j
    rw [hpointers]
    exact hrecorded j
  · intro j a hj
    rw [hsets, hpointers]
    exact hapart j a hj
  · rw [hsets]
    exact hcompleted
  · rw [hsets]
    exact hstarted
  · rw [hsets]
    exact hs.pointer
  · rw [hmetadata]
    intro stream key
    rw [latest, hsets]
    exact hs.metadata stream key

lemma quiet (hs : p.Shares) (hq : Acted p q i h a) (hsets : q.sets = p.sets)
    (hmanager : q.sharedDataManager = p.sharedDataManager) (hmetadata : q.metadata = p.metadata)
    (hrec : recordedBy a = []) : q.Shares := by
  have hpointers : ∀ j, q.pointersOf j = p.pointersOf j := fun j => by
    rw [pointersOf, hsets, pointersOf]
  refine hs.unchanged hsets hmanager hmetadata (fun j => ?_) (fun j b hj => ?_) (fun r hr hc => ?_)
    fun r hr => ?_
  · rw [← hpointers]
    exact hq.recorded hs (fun j => by rw [hpointers, hrec, ite_self, List.append_nil]) j
  · exact hs.apart j b (hq.held_of_held hj)
  · exact (hq.life r.setter).1 (hs.completed r hr hc)
  · exact (hq.life r.setter).2 (hs.started r hr)

lemma not_mem_of_allocatable (hp : p.Sound) (hs : p.Shares) {pointer : ℕ}
    (halloc : p.allocatable pointer = true) :
    pointer < 2 ^ 64 ∧ (∀ r ∈ p.sets, r.cleared = false → r.pointer ≠ pointer) ∧
      ∀ j b, p.held j = some b → pointer ∉ p.pointersOf j := by
  simp only [allocatable, Bool.and_eq_true, decide_eq_true_eq, Option.isNone_iff_eq_none,
    List.all_eq_true] at halloc
  refine ⟨halloc.1.1, ?_, fun j b hj => ?_⟩
  · rintro r hr hc rfl
    have := (hs.manager r.pointer _).mpr ⟨r, hr, hc, rfl, rfl⟩
    simp [halloc.1.2] at this
  · have hread := (hp.handle b j (hp.owner j b hj)).2.1
    rw [← (hs.recorded j).2]
    exact halloc.2 _ (List.mem_of_getElem? hread)

section SetData

variable {r : SetRecord ω}

lemma latest_append (hsets : q.sets = p.sets ++ [r]) (stream : ℕ) (key : GoString) :
    q.latest stream key =
      if r.stream = stream ∧ r.key = key then some r else p.latest stream key := by
  by_cases h : r.stream = stream ∧ r.key = key
  · simp [latest, hsets, List.filter_append, h]
  · rw [not_and_or] at h
    rcases h with h | h <;> simp [latest, hsets, List.filter_append, h]

lemma pointersOf_append (hsets : q.sets = p.sets ++ [r]) (j : ℕ) :
    q.pointersOf j = p.pointersOf j ++ if j = r.setter then [r.pointer] else [] := by
  by_cases hj : j = r.setter
  · simp [pointersOf, hsets, hj]
  · simp [pointersOf, hsets, hj, Ne.symm hj]

lemma mem_append (hsets : q.sets = p.sets ++ [r]) {r' : SetRecord ω} (hr : r' ∈ q.sets) :
    r' ∈ p.sets ∨ r' = r := by
  rw [hsets] at hr
  simpa using hr

lemma manager_append (hs : p.Shares) (hsets : q.sets = p.sets ++ [r])
    (hmanager : q.sharedDataManager = p.sharedDataManager.record r.pointer ⟨r.value, r.setter⟩)
    (hclear : r.cleared = false)
    (hunused : ∀ r' ∈ p.sets, r'.cleared = false → r'.pointer ≠ r.pointer) (b : ℕ)
    (w : SharedDataWrapper ω) : q.sharedDataManager.search b = some w ↔
      ∃ r' ∈ q.sets, r'.cleared = false ∧ r'.pointer = b ∧ w = ⟨r'.value, r'.setter⟩ := by
  rw [hmanager, Manager.search_record]
  by_cases hb : b = r.pointer
  · rw [if_pos hb]
    constructor
    · intro hw
      exact ⟨r, by simp [hsets], hclear, hb.symm, (Option.some.inj hw).symm⟩
    · rintro ⟨r', hr', hc, hrb, rfl⟩
      rcases mem_append hsets hr' with hr' | rfl
      · exact absurd (hrb.trans hb) (hunused r' hr' hc)
      · rfl
  · rw [if_neg hb, hs.manager]
    constructor
    · rintro ⟨r', hr', hrest⟩
      exact ⟨r', by simp [hsets, hr'], hrest⟩
    · rintro ⟨r', hr', hc, hrb, rfl⟩
      rcases mem_append hsets hr' with hr' | rfl
      · exact ⟨r', hr', hc, hrb, rfl⟩
      · exact absurd hrb.symm hb

/-- What is set at an address nobody remembers is its setter's only. -/
lemma apart_append (hs : p.Shares) (hq : Acted p q r.setter h a) (hsets : q.sets = p.sets ++ [r])
    (hunused : ∀ r' ∈ p.sets, r'.cleared = false → r'.pointer ≠ r.pointer)
    (hnot : ∀ j b, p.held j = some b → r.pointer ∉ p.pointersOf j) {j b : ℕ}
    (hj : q.held j = some b) {r' : SetRecord ω} (hr : r' ∈ q.sets) (hc : r'.cleared = false)
    (hrj : r'.pointer ∈ q.pointersOf j) : r'.setter = j := by
  have hjp := hq.held_of_held hj
  rw [pointersOf_append hsets] at hrj
  rcases mem_append hsets hr with hr | rfl
  · rcases List.mem_append.mp hrj with hrj | hrj
    · exact hs.apart j b hjp r' hr hc hrj
    · have hrp : r'.pointer = r.pointer := by
        by_cases hji : j = r.setter
        · simpa [hji] using hrj
        · simp [hji] at hrj
      exact absurd hrp (hunused r' hr hc)
  · by_cases hji : j = r'.setter
    · exact hji.symm
    · rcases List.mem_append.mp hrj with hrj | hrj
      · exact absurd hrj (hnot j b hjp)
      · simp [hji] at hrj

lemma metadata_append (hs : p.Shares) (hsets : q.sets = p.sets ++ [r])
    (hmetadata : q.metadata = Function.update p.metadata r.stream
      (Function.update (p.metadata r.stream) r.key (some (formatUint r.pointer)))) (stream : ℕ)
    (key : GoString) : q.metadata stream key =
      (q.latest stream key).map fun r' => formatUint r'.pointer := by
  rw [hmetadata, latest_append hsets]
  by_cases hstream : stream = r.stream
  · subst hstream
    by_cases hkey : key = r.key
    · simp [hkey]
    · simp [hkey, Ne.symm hkey, hs.metadata]
  · simp [hstream, Ne.symm hstream, hs.metadata]

end SetData

/-- **`SetData`**. -/
lemma setData {key : GoString} {value : Option ω} {pointer : ℕ} (hp : p.Sound) (hs : p.Shares)
    (hallows : p.allows i (.call (.setData key value pointer)) = true)
    (hread : p.handles.read (p.instances i).handle = some h) :
    ((p.record i h (.call (.setData key value pointer))).around i h
      (.call (.setData key value pointer))).Shares := by
  obtain ⟨hholds, halloc⟩ : (p.instances i).phase.holds = true ∧ p.allocatable pointer = true := by
    simpa [allows] using hallows
  obtain ⟨hlt, hunused, hnot⟩ := hs.not_mem_of_allocatable hp halloc
  have hq := hp.acted hallows hread
  have hptr : h.hostPluginPtr = i := by
    rw [← hq.replay]
    exact (hs.recorded i).1
  set r : SetRecord ω := ⟨i, (p.instances i).stream, key, value, pointer, false⟩ with hr
  have hsets : ((p.record i h (.call (.setData key value pointer))).around i h
      (.call (.setData key value pointer))).sets = p.sets ++ [r] := by
    simp [around, Process.setData, record, hptr, hr]
  constructor
  · exact hs.manager_append hsets rfl rfl hunused
  · exact hq.recorded hs (pointersOf_append hsets)
  · exact fun j b hj r' => hs.apart_append hq hsets hunused hnot hj
  · intro r' hr' hc
    rcases mem_append hsets hr' with hr' | rfl
    · exact (hq.life r'.setter).1 (hs.completed r' hr' hc)
    · simp [hr] at hc
  · intro r' hr'
    rcases mem_append hsets hr' with hr' | rfl
    · exact (hq.life r'.setter).2 (hs.started r' hr')
    · refine (hq.life i).2 fun hidle => ?_
      simp [hidle, Phase.holds] at hholds
  · intro r' hr'
    rcases mem_append hsets hr' with hr' | rfl
    · exact hs.pointer r' hr'
    · exact hlt
  · refine hs.metadata_append hsets ?_
    simp [around, Process.setData, record, hptr, hr]

lemma manager_clearBy (hs : p.Shares) (hheld : p.held i = some (p.instances i).handle)
    (hlist : h.recordedSharedData = p.pointersOf i)
    (hsets : q.sets = p.sets.map (clearBy i h.plugin.isSome))
    (hmanager : q.sharedDataManager = p.sharedDataManager.removeAll h.clearData) (b : ℕ)
    (w : SharedDataWrapper ω) : q.sharedDataManager.search b = some w ↔
      ∃ r ∈ q.sets, r.cleared = false ∧ r.pointer = b ∧ w = ⟨r.value, r.setter⟩ := by
  rw [hmanager, Manager.search_removeAll, hsets]
  constructor
  · intro hw
    split_ifs at hw with hb
    obtain ⟨r, hr, hc, rfl, rfl⟩ := (hs.manager b w).mp hw
    refine ⟨clearBy i h.plugin.isSome r, List.mem_map_of_mem hr, ?_, clearBy_pointer .., ?_⟩
    · rw [clearBy_cleared, hc, Bool.false_or, Bool.and_eq_false_iff]
      by_contra hboth
      simp only [not_or, Bool.not_eq_false, decide_eq_true_eq] at hboth
      refine hb (mem_clearData.mpr ⟨hboth.2, ?_⟩)
      rw [hlist, pointersOf]
      exact List.mem_map_of_mem (List.mem_filter.mpr ⟨hr, by simpa using hboth.1⟩)
    · rw [clearBy_setter, clearBy_value]
  · rintro ⟨r', hr', hc, hb, rfl⟩
    obtain ⟨r, hr, rfl⟩ := List.mem_map.mp hr'
    rw [clearBy_cleared, Bool.or_eq_false_iff] at hc
    rw [clearBy_pointer] at hb
    rw [clearBy_setter, clearBy_value, if_neg, hs.manager]
    · exact ⟨r, hr, hc.1, hb, rfl⟩
    · intro hclear
      obtain ⟨hplugin, hin⟩ := mem_clearData.mp hclear
      rw [hlist, ← hb] at hin
      have hsetter := hs.apart i _ hheld r hr hc.1 hin
      simp [hsetter, hplugin] at hc

/-- **`stream_complete`**. -/
lemma streamComplete (hp : p.Sound) (hs : p.Shares)
    (hallows : p.allows i (.hook .streamComplete) = true)
    (hread : p.handles.read (p.instances i).handle = some h) :
    ((p.record i h (.hook .streamComplete)).around i h (.hook .streamComplete)).Shares := by
  have hheld : p.held i = some (p.instances i).handle := by
    have hhooked : (p.instances i).phase.hooked = true := by simpa [allows] using hallows
    simp [held, holds_of_hooked hhooked]
  have hq := hp.acted hallows hread
  have hlist : h.recordedSharedData = p.pointersOf i := by
    rw [← hq.replay]
    exact (hs.recorded i).2
  have hsets : ((p.record i h (.hook .streamComplete)).around i h (.hook .streamComplete)).sets =
      p.sets.map (clearBy i h.plugin.isSome) := rfl
  have hpointers := pointersOf_clearBy hsets
  have hmem := fun r' => List.mem_map (b := r') (f := clearBy i h.plugin.isSome) (l := p.sets)
  constructor
  · exact hs.manager_clearBy hheld hlist hsets rfl
  · refine hq.recorded hs fun j => ?_
    rw [hpointers]
    by_cases hji : j = i <;> simp [recordedBy]
  · intro j b hj r' hr' hc hin
    obtain ⟨r, hr, rfl⟩ := (hmem r').mp hr'
    rw [clearBy_cleared, Bool.or_eq_false_iff] at hc
    rw [clearBy_pointer, hpointers] at hin
    rw [clearBy_setter]
    exact hs.apart j b (hq.held_of_held hj) r hr hc.1 hin
  · intro r' hr' hc
    obtain ⟨r, hr, rfl⟩ := (hmem r').mp hr'
    rw [clearBy_cleared, Bool.or_eq_true] at hc
    rw [clearBy_setter]
    rcases hc with hc | hc
    · exact (hq.life r.setter).1 (hs.completed r hr hc)
    · have hsetter : r.setter = i := by
        simp only [Bool.and_eq_true, decide_eq_true_eq] at hc
        exact hc.1
      rw [hsetter, hq.self]
      rfl
  · intro r' hr'
    obtain ⟨r, hr, rfl⟩ := (hmem r').mp hr'
    rw [clearBy_setter]
    exact (hq.life r.setter).2 (hs.started r hr)
  · intro r' hr'
    obtain ⟨r, hr, rfl⟩ := (hmem r').mp hr'
    rw [clearBy_pointer]
    exact hs.pointer r hr
  · intro stream key
    rw [latest_clearBy hsets, Option.map_map]
    refine (hs.metadata stream key).trans ?_
    congr 1
    exact funext fun r => by rw [Function.comp_apply, clearBy_pointer]

/-- **`on_http_filter_new`** up to `Create`: the new instance has set nothing. -/
lemma acquire {b : ℕ} (hs : p.Shares) (hq : Acquired p q i b) (hsets : q.sets = p.sets)
    (hmanager : q.sharedDataManager = p.sharedDataManager) (hmetadata : q.metadata = p.metadata) :
    q.Shares := by
  have hsetter : ∀ r ∈ p.sets, r.setter ≠ i := by
    rintro r hr rfl
    exact hs.started r hr hq.idle
  refine hs.unchanged hsets hmanager hmetadata (fun j => ?_) (fun j c hj r hr hc hin => ?_)
    (fun r hr hc => ?_) fun r hr => ?_
  · rw [(hq.replayOf j).2]
    exact hs.recorded j
  · by_cases hji : j = i
    · obtain ⟨r', hr', -⟩ := List.mem_map.mp hin
      have hr' := List.mem_filter.mp hr'
      exact absurd (by simpa [hji] using hr'.2) (hsetter r' hr'.1)
    · rw [hq.held, Function.update_of_ne hji] at hj
      exact hs.apart j c hj r hr hc hin
  · rw [hq.ne _ (hsetter r hr)]
    exact hs.completed r hr hc
  · rw [hq.ne _ (hsetter r hr)]
    exact hs.started r hr

/-- **One step** keeps the invariant. -/
lemma step {p' : Process ω} {l : Label ω} (hp : p.Sound) (hs : p.Shares) (hstep : p.step l = some p') :
    p'.Shares := by
  cases l with
  | new i stream choice =>
      simp only [Process.step] at hstep
      split_ifs at hstep with hcond
      obtain ⟨⟨b, pool⟩, hget, hstep⟩ := Option.bind_eq_some_iff.mp hstep
      obtain ⟨x, hread, rfl⟩ := Option.map_eq_some_iff.mp hstep
      rw [Process.acquire, hp.reset_of_get hget hread i]
      exact hs.acquire (hp.acquired (by simp_all) hget) rfl rfl rfl
  | act i a =>
      simp only [Process.step] at hstep
      split_ifs at hstep with hcond
      obtain ⟨x, hread, rfl⟩ := Option.map_eq_some_iff.mp hstep
      have hallows : p.allows i a = true := by simp_all
      by_cases hquiet : shares a = false
      · obtain ⟨hsets, hmanager, hmetadata, hrec⟩ :=
          around_quiet (i := i) (h := x) (p.record i x a) hquiet
        exact hs.quiet (hp.acted hallows hread) hsets hmanager hmetadata hrec
      · cases a with
        | created plugin => simp [shares] at hquiet
        | destroyReturned => simp [shares] at hquiet
        | call m =>
            cases m with
            | setData key value pointer => exact hs.setData hp hallows hread
            | _ => simp [shares] at hquiet
        | hook k =>
            cases k with
            | streamComplete => exact hs.streamComplete hp hallows hread
            | _ => simp [shares] at hquiet

end Shares

end Step

/-! ## Whole runs -/

lemma sound_shares_of_run {ls : List (Label ω)} {p : Process ω}
    (hrun : run Process.step {} ls = some p) : p.Sound ∧ p.Shares :=
  run_invariant (I := fun p => p.Sound ∧ p.Shares)
    (fun _ _ _ hp h => ⟨hp.1.step h, hp.2.step hp.1 h⟩) ⟨sound_new, shares_new⟩ hrun

/-- **What an instance leaves behind.**  In every run, nothing in the manager is the instance's exactly if
each of its `SetData` calls has been followed by a `stream_complete` that found its plugin. -/
theorem leavesNothing_iff (ls : List (Label ω)) (p : Process ω)
    (hrun : run Process.step {} ls = some p) (i : ℕ) :
    p.LeavesNothing i ↔ ∀ r ∈ p.sets, r.setter = i → r.cleared = true := by
  have hs := (sound_shares_of_run hrun).2
  constructor
  · intro hleaves r hr hsetter
    by_contra hc
    have hfound := (hs.manager r.pointer _).mpr ⟨r, hr, by simpa using hc, rfl, rfl⟩
    exact hleaves.own _ _ hfound hsetter
  · intro hall
    constructor
    · rintro a w hw rfl
      obtain ⟨r, hr, hc, -, rfl⟩ := (hs.manager a w).mp hw
      simp [hall r hr rfl] at hc
    · rintro r hr - hlive
      have hc : r.cleared = false := by
        by_contra hc
        have hc : r.cleared = true := by simpa using hc
        simp [hlive (hs.completed r hr hc)] at hc
      exact (hs.manager r.pointer _).mpr ⟨r, hr, hc, rfl, rfl⟩

/-- The stream is reset: the filter has set data, and is destroyed without `stream_complete`. -/
def resetStream : List (Label String) :=
  [.new 0 0 none, .act 0 (.created (some "auth")),
    .act 0 (.call (.setData (ascii "user") (some "alice") 64)), .act 0 (.hook .destroy),
    .act 0 .destroyReturned]

/-- The wrapper is still there. -/
theorem resetStream_leaves :
    ¬ ∀ (ls : List (Label String)) (p : Process String), run Process.step {} ls = some p →
      ∀ i, (p.instances i).phase = .gone → p.LeavesNothing i := by
  intro h
  have hleaves := h resetStream _ rfl 0 rfl
  exact hleaves.own 64 ⟨some "alice", 0⟩ rfl rfl

/-- Two filters on one stream; the one that has set data completes, and both are destroyed. -/
def completedStream : List (Label String) :=
  [.new 0 0 none, .act 0 (.created (some "auth")), .new 1 0 none, .act 1 (.created (some "audit")),
    .act 0 (.call (.setData (ascii "user") (some "alice") 64)),
    .act 1 (.call (.getData (ascii "user"))), .act 0 (.hook .streamComplete),
    .act 1 (.call (.getData (ascii "user"))), .act 0 (.hook .destroy), .act 0 .destroyReturned]

/-- The process after it. -/
def completedProcess : Process String := (run Process.step {} completedStream).getD {}

theorem leavesNothing_iff_completed :
    (completedProcess.instances 0).phase = .gone ∧
      (completedProcess.LeavesNothing 0 ↔
        ∀ r ∈ completedProcess.sets, r.setter = 0 → r.cleared = true) :=
  ⟨rfl, leavesNothing_iff completedStream completedProcess rfl 0⟩

/-- What is found at an address is nil exactly when nothing but nil is there uncleared. -/
lemma found_eq_none_iff {p : Process ω} (hs : p.Shares) (pointer : ℕ) :
    (p.sharedDataManager.search pointer).bind SharedDataWrapper.data = none ↔
      ∀ r ∈ p.sets, r.pointer = pointer → r.value ≠ none → r.cleared = true := by
  constructor
  · rintro hnone r hr rfl hvalue
    by_contra hc
    have hfound := (hs.manager r.pointer _).mpr ⟨r, hr, by simpa using hc, rfl, rfl⟩
    rw [hfound] at hnone
    exact hvalue hnone
  · intro hall
    cases hsearch : p.sharedDataManager.search pointer with
    | none => rfl
    | some w =>
        obtain ⟨r, hr, hc, hpointer, rfl⟩ := (hs.manager pointer w).mp hsearch
        show r.value = none
        by_contra hvalue
        simp [hall r hr hpointer hvalue] at hc

lemma getsOwn_iff_of_step {p p' : Process ω} {l : Label ω} (hp : p.Sound) (hs : p.Shares)
    (hstep : p.step l = some p') : p.GetsOwn l ↔ p.AddressCleared l := by
  cases l with
  | new i stream choice => rfl
  | act i a =>
      cases a with
      | created plugin => rfl
      | hook k => rfl
      | destroyReturned => rfl
      | call m =>
          cases m with
          | getData key =>
              simp only [Process.step] at hstep
              split_ifs at hstep with hcond
              obtain ⟨x, hread, -⟩ := Option.map_eq_some_iff.mp hstep
              have hallows : p.allows i (.call (.getData key)) = true := by simp_all
              have hptr : x.hostPluginPtr = i :=
                (hp.acted hallows hread).replay ▸ (hs.recorded i).1
              have hgets : p.GetsOwn (.act i (.call (.getData key))) ↔
                  p.getData i key = p.expected (p.instances i).stream key := by
                simp [GetsOwn, hread, hptr]
              rw [hgets, getData_eq hs, expected, AddressCleared]
              cases hlatest : p.latest (p.instances i).stream key with
              | none => simp
              | some r =>
                  have hr : r ∈ p.sets := List.mem_of_mem_filter (List.mem_of_getLast? hlatest)
                  cases hc : (p.instances r.setter).completed with
                  | true => simp [hc, found_eq_none_iff hs]
                  | false =>
                      have hclear : r.cleared = false := by
                        by_contra hclear
                        simp [hs.completed r hr (by simpa using hclear)] at hc
                      have hfound := (hs.manager r.pointer _).mpr ⟨r, hr, hclear, rfl, rfl⟩
                      simp [hc, hfound]
          | _ => rfl

/-- **When `GetData` is right.**  In every run, each call returns the value set last on its own stream, and
nil once the setter has completed, exactly if each call that finds a completed setter finds its address
cleared. -/
theorem getsOwn_iff (ls : List (Label ω)) (p : Process ω)
    (hrun : run Process.step {} ls = some p) :
    Along Process.step GetsOwn {} ls ↔ Along Process.step AddressCleared {} ls :=
  along_iff (I := fun p => p.Sound ∧ p.Shares)
    (fun _ _ _ hp _ h => ⟨hp.1.step h, hp.2.step hp.1 h⟩)
    (fun _ _ _ hp h => getsOwn_iff_of_step hp.1 hp.2 h) ⟨sound_new, shares_new⟩ hrun

/-- The setter completes and is destroyed, and its handle goes to a filter on another stream, which sets
data twice; the second wrapper gets the address of the setter's. -/
def addressComesRound : List (Label String) :=
  [.new 0 0 none, .act 0 (.created (some "auth")), .new 1 0 none, .act 1 (.created (some "audit")),
    .act 0 (.call (.setData (ascii "user") (some "alice") 64)), .act 0 (.hook .streamComplete),
    .act 0 (.hook .destroy), .act 0 .destroyReturned,
    .new 2 1 (some 0), .act 2 (.created (some "auth")),
    .act 2 (.call (.setData (ascii "tenant") (some "acme") 128)),
    .act 2 (.call (.setData (ascii "user") (some "bob") 64))]

/-- The other filter of the first stream asks for the setter's key, and is given the data of the other
stream. -/
theorem addressComesRound_leaks :
    ¬ ∀ (ls : List (Label String)) (p : Process String), run Process.step {} ls = some p →
      Along Process.step GetsOwn {} ls := by
  intro h
  have hall := h (addressComesRound ++ [.act 1 (.call (.getData (ascii "user")))]) _ rfl
  have hlast := Along.last hall rfl _ rfl
  exact absurd hlast (by decide)

theorem getsOwn_iff_completed :
    run Process.step {} completedStream = some completedProcess ∧
      (Along Process.step GetsOwn {} completedStream ↔
        Along Process.step AddressCleared {} completedStream) :=
  ⟨rfl, getsOwn_iff completedStream completedProcess rfl⟩

end Luwes.AbiImpl.Process
