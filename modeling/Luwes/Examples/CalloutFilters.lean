import Luwes.Sahl.Continuations
import Luwes.Sahl.Request

/-!
# The filters of the callout tests

`e2e/calloutfilters` has one filter twice.  `callout-sahl` asks the service with a continuation, `do-sahl`
from a goroutine, and the comment on the second says that it has the same contract as the first.

`same_contract` says when it has.  The continuation runs while the host keeps the answer, the goroutine reads
it from memory that the host may have given to something else: what it finds there has to decide the same.
And they look at different things when the service does not answer.  A callout that fails is rejected by
`callout-sahl` only; `do-sahl` looks for an error of `Do`, which a failed callout is not.  One that cannot
start is rejected by `do-sahl` only.
-/

namespace Luwes.CalloutFilters

open LabelledRun Sahl

/-! ## The filters (`callout_filters.go`) -/

/-- The request of both. -/
def calloutRequest (header : Header) : HTTPCalloutRequest where
  cluster := ascii "callout_upstream"
  headers := [(ascii ":method", ascii "GET"), (ascii ":path", (header.get (ascii ":path")).1),
    (ascii ":scheme", ascii "http"), (ascii ":authority", ascii "callout_upstream")]
  body := []
  timeoutMs := 2000

/-- The status and the user of an answer. -/
structure Reading where
  status : GoString := []
  user : GoString := []
  deriving DecidableEq, Repr

/-- One turn of the loop over the headers. -/
def Reading.note (x : Reading) (h : UnsafeEnvoyBuffer × UnsafeEnvoyBuffer) : Reading :=
  let k := h.1.toString
  let v := h.2.toString
  let x : Reading := if k = ascii ":status" ∨ k = ascii "status" then { x with status := v } else x
  if k = ascii "x-auth-user" then { x with user := v } else x

/-- The loop. -/
def readAnswer (hdrs : HeaderSlice) : Reading := hdrs.foldl Reading.note {}

/-- The body of a rejection. -/
def errorBody (text : String) : Bytes := ascii "\x7b\"error\":\"" ++ ascii text ++ ascii "\"\x7d"

/-- What both do with an answer. -/
def answerCalls (x : Reading) : List UserCall :=
  if x.status = ascii "401" then [.send 401 (errorBody "denied")]
  else if x.user ≠ [] then [.setRequestHeader (ascii "x-auth-user") x.user] else []

/-- The continuation of `calloutHandler`. -/
def calloutCalls : CalloutCalls := fun result hdrs _ =>
  if result ≠ .success then [.send 502 (errorBody "callout failed")] else answerCalls (readAnswer hdrs)

/-- `calloutHandler`. -/
def calloutHandler (header : Header) : HandlerFunc :=
  Sahl.calloutHandler [] (calloutRequest header) calloutCalls

/-- The function of `doHandler` after its `Do`. -/
def doCalls : DoResult → List UserCall
  | .resp resp => answerCalls (readAnswer resp.headers)
  | .initErr _ | .cancelled => [.send 502 (errorBody "do failed")]

/-- The function of `doHandler`. -/
def doBody (header : Header) : Prog :=
  .doCallout (calloutRequest header) fun
    | .ok a => straight (doCalls a)
    | .panicked => .panic

/-- `doHandler`. -/
def doHandler (header : Header) : HandlerFunc := goHandler [] (doBody header)

/-! ## What comes of them -/

/-- A rejection. -/
def reject (status : UInt32) (text : String) : List HostEvent :=
  [.sendLocalResponse status [] (errorBody text) (ascii "sahl")]

/-- What an answer of the service decides. -/
def decision (x : Reading) : List HostEvent :=
  if x.status = ascii "401" then reject 401 "denied"
  else (if x.user ≠ [] then [.setRequestHeader ⟨ascii "x-auth-user", x.user⟩] else []) ++
    [.other .continueRequest]

/-- The effects of `callout-sahl`. -/
def calloutEffects : CalloutOutcome → List HostEvent
  | .pending | .refused => []
  | .answered result hdrs _ =>
    if result ≠ .success then reject 502 "callout failed" else decision (readAnswer hdrs)

/-- The effects of `do-sahl`, by what it finds in the buffers of the response. -/
def doEffects : DoResult → List HostEvent
  | .resp resp => decision (readAnswer resp.headers)
  | .initErr _ | .cancelled => reject 502 "do failed"

/-- What `callout-sahl` does for the result and the reading of the service's answer, if it answers. -/
def calloutContract : Option (HttpCalloutResult × Reading) → List HostEvent
  | none => []
  | some (result, x) => if result ≠ .success then reject 502 "callout failed" else decision x

/-- What `do-sahl` does when the service answers, or not, and its goroutine finds this. -/
def doContract (answered : Bool) (found : Reading) : List HostEvent :=
  if answered then decision found else reject 502 "do failed"

lemma reject_ne_decision (text : String) (x : Reading) : reject 502 text ≠ decision x := by
  rw [reject, decision]
  split_ifs <;> simp [reject]

/-- They do the same for an answer that is no failure, if the goroutine finds what decides the same. -/
lemma calloutContract_eq_iff (answer : Option (HttpCalloutResult × Reading)) (found : Reading) :
    calloutContract answer = doContract answer.isSome found ↔
      ∃ x, answer = some (.success, x) ∧ decision x = decision found := by
  rcases answer with _ | ⟨result, x⟩
  · simp [calloutContract, doContract, reject]
  · rw [calloutContract, doContract, Option.isSome_some, if_pos rfl]
    split_ifs with hresult
    · simp [reject_ne_decision, hresult]
    · simp [not_not.mp hresult]

/-- A continuation sends at once and then lets the request go on, if it has sent nothing. -/
lemma view_calloutCalls (r : ℕ) (o : CalloutOutcome) : o.view r [] calloutCalls = calloutEffects o := by
  cases o with
  | pending | refused => rfl
  | answered result hdrs body =>
      simp only [CalloutOutcome.view, calloutCalls, calloutEffects, answerCalls, decision]
      split_ifs <;> rfl

lemma goView_doCalls (r : ℕ) (a : DoResult) : goView r [] (doCalls a) = doEffects a := by
  cases a with
  | initErr | cancelled => rfl
  | resp resp =>
      simp only [doCalls, doEffects, answerCalls, decision]
      split_ifs <;> rfl

/-- The function of `doHandler` asks once, and goes on with what comes of the answer. -/
lemma goes_doBody {header : Header} {as : List DoResult} {cs : List UserCall} {q : Prog}
    (h : (doBody header).Goes as cs q) :
    (as = [] ∧ cs = [] ∧ q = doBody header) ∨
      ∃ a rest, as = [a] ∧ doCalls a = cs ++ rest ∧ q = straight rest := by
  have hcalls {c : UserCall} {rest : List UserCall} {k : Prog} (hq : Prog.call c k = straight rest) :
      ∃ rest', rest = c :: rest' ∧ k = straight rest' := by
    cases rest with
    | nil => cases hq
    | cons c' rest' =>
        obtain ⟨rfl, rfl⟩ := Prog.call.inj hq
        exact ⟨rest', rfl, rfl⟩
  induction h with
  | start => exact .inl ⟨rfl, rfl, rfl⟩
  | calls _ ih =>
      obtain ⟨-, -, hq⟩ | ⟨a, rest, rfl, hcs, hq⟩ := ih
      · cases hq
      · obtain ⟨rest', rfl, rfl⟩ := hcalls hq
        exact .inr ⟨a, rest', rfl, by rw [hcs, List.append_assoc]; rfl, rfl⟩
  | answered _ a ih =>
      obtain ⟨rfl, rfl, hq⟩ | ⟨_, rest, -, -, hq⟩ := ih
      · obtain ⟨-, rfl⟩ := Prog.doCallout.inj hq
        exact .inr ⟨a, doCalls a, rfl, rfl, rfl⟩
      · cases rest <;> cases hq
  | observes _ _ ih | goRefused _ ih | calloutRefused _ ih | streamRefused _ ih =>
      obtain ⟨-, -, hq⟩ | ⟨_, rest, -, -, hq⟩ := ih
      · cases hq
      · cases rest <;> cases hq

/-! ## Runs -/

section

variable {header : Header} {r : ℕ} {ls : List State.Label} {s : State}

/-- The handler has returned, the callout is done, and the stream is not. -/
structure CalloutSettled (s : State) : Prop where
  phase : s.phase ≠ .awaitingHeaders
  stack : s.stack = []
  callouts : s.callouts = []
  live : s.streamDone = false ∧ s.hasWriter = true

/-- The handler and its goroutine have returned and the flush has run. -/
structure GoSettled (s : State) : Prop where
  phase : s.phase ≠ .awaitingHeaders
  stack : s.stack = []
  goroutine : s.goroutine = none
  flushed : .flush ∉ s.tasks

lemma calloutHandler_run
    (hrun : run State.step (State.new r { handler := calloutHandler header }) ls = some s)
    (hs : CalloutSettled s) :
    ∃ o : CalloutOutcome, o ≠ .pending ∧ o.Given ls ∧ effects s.trace = calloutEffects o := by
  cases (State.calling_run hrun).stage with
  | before hphase => exact absurd hphase hs.phase
  | handling _ _ _ _ hstack | failing _ _ _ hstack | continuing _ _ _ _ _ _ _ _ hstack =>
      simp [hs.stack] at hstack
  | waiting _ _ _ hcallouts => simp [hs.callouts] at hcallouts
  | settled o _ _ _ hgiven hover heffects =>
      refine ⟨o, fun ho => ?_, hgiven, heffects.trans (view_calloutCalls r o)⟩
      simpa [hs.live.1, hs.live.2] using hover ho

lemma doHandler_run (hrun : run State.step (State.new r { handler := doHandler header }) ls = some s)
    (hs : GoSettled s) : ∃ a, Given ls a ∧ effects s.trace = doEffects a := by
  cases (State.going_run hrun).stage with
  | before hphase => exact absurd hphase hs.phase
  | handling _ _ _ _ hstack => simp [hs.stack] at hstack
  | working _ _ _ _ _ hgo => simp [hs.goroutine] at hgo
  | returned _ _ _ _ htasks => simp [List.count_eq_zero.mpr hs.flushed] at htasks
  | flushed as cs hgoes hgiven _ _ _ _ heffects =>
      obtain ⟨-, -, hq⟩ | ⟨a, rest, rfl, hcs, hq⟩ := goes_doBody hgoes
      · cases hq
      · obtain rfl : rest = [] := by
          cases rest with
          | nil => rfl
          | cons => cases hq
        rw [List.append_nil] at hcs
        subst hcs
        exact ⟨a, hgiven a (List.mem_singleton_self a), heffects.trans (goView_doCalls r a)⟩

end

/-- The service gives this answer to all that ask, or none. -/
structure Serves (ls : List State.Label) (answer : Option (HttpCalloutResult × Reading)) : Prop where
  answers : ∀ (id : ℕ) (result : HttpCalloutResult) (headers : HeaderSlice) (body : List UnsafeEnvoyBuffer),
    .calloutDone id result headers body ∈ ls → answer = some (result, readAnswer headers)
  /-- If it answers, the host lets them ask, and no context is cancelled before. -/
  asked : answer ≠ none → (∀ c, .worker c ∈ ls → c.init = .success) ∧
    (∀ i c, .task i c ∈ ls → c.init = .success) ∧ ∀ c, .goroutine c ∈ ls → c.cancel = false

lemma Serves.calloutEffects {ls : List State.Label} {answer : Option (HttpCalloutResult × Reading)}
    (h : Serves ls answer) {o : CalloutOutcome} (ho : o ≠ .pending) (hgiven : o.Given ls) :
    calloutEffects o = calloutContract answer := by
  cases o with
  | pending => exact absurd rfl ho
  | refused =>
      obtain ⟨c, hc, hinit⟩ := hgiven
      obtain rfl : answer = none := by
        by_contra hsome
        exact hinit ((h.asked hsome).1 c hc)
      rfl
  | answered result headers body =>
      obtain ⟨id, hid⟩ := hgiven
      rw [h.answers id result headers body hid]
      rfl

/-- What the goroutine finds is what there is at one of its steps. -/
lemma Serves.doEffects {ls : List State.Label} {answer : Option (HttpCalloutResult × Reading)}
    (h : Serves ls answer) {a : DoResult} (hgiven : Given ls a) :
    ∃ c, .goroutine c ∈ ls ∧ doEffects a = doContract answer.isSome (readAnswer c.headers) := by
  obtain ⟨c, hc, ⟨hcancel, rfl⟩ | ⟨sent, hsent, rfl⟩⟩ := hgiven
  · obtain rfl : answer = none := by
      by_contra hsome
      simp [(h.asked hsome).2.2 c hc] at hcancel
    exact ⟨c, hc, rfl⟩
  · refine ⟨c, hc, ?_⟩
    cases sent with
    | resp resp =>
        obtain ⟨id, hid⟩ := hsent
        rw [h.answers id _ _ _ hid]
        rfl
    | initErr init =>
        obtain ⟨hinit, i, c', hc', heq⟩ := hsent
        obtain rfl : answer = none := by
          by_contra hsome
          exact hinit (heq.symm.trans ((h.asked hsome).2.1 i c' hc'))
        rfl
    | cancelled => exact hsent.elim

/-- **When it is the same contract.**  In any two runs of the two filters for which the service has the same
answer, the first does what it should for the answer, the second for what its goroutine finds in the memory of
the answer.  They do the same exactly if the service has answered, the callout has not failed, and what the
goroutine finds decides the same. -/
theorem same_contract {header₁ header₂ : Header} {r₁ r₂ : ℕ} {ls₁ ls₂ : List State.Label} {s₁ s₂ : State}
    {answer : Option (HttpCalloutResult × Reading)}
    (hrun₁ : run State.step (State.new r₁ { handler := calloutHandler header₁ }) ls₁ = some s₁)
    (hs₁ : CalloutSettled s₁) (hserves₁ : Serves ls₁ answer)
    (hrun₂ : run State.step (State.new r₂ { handler := doHandler header₂ }) ls₂ = some s₂)
    (hs₂ : GoSettled s₂) (hserves₂ : Serves ls₂ answer) :
    effects s₁.trace = calloutContract answer ∧
      ∃ c, .goroutine c ∈ ls₂ ∧
        effects s₂.trace = doContract answer.isSome (readAnswer c.headers) ∧
        (effects s₁.trace = effects s₂.trace ↔
          ∃ x, answer = some (.success, x) ∧ decision x = decision (readAnswer c.headers)) := by
  obtain ⟨o, ho, hgiven, heffects⟩ := calloutHandler_run hrun₁ hs₁
  obtain ⟨a, hgiven', heffects'⟩ := doHandler_run hrun₂ hs₂
  obtain ⟨c, hc, hfound⟩ := hserves₂.doEffects hgiven'
  have hcallout := heffects.trans (hserves₁.calloutEffects ho hgiven)
  have hdo := heffects'.trans hfound
  refine ⟨hcallout, c, hc, hdo, ?_⟩
  rw [hcallout, hdo]
  exact calloutContract_eq_iff answer _

/-- The headers of an answer that denies a request. -/
def deniedAnswer : HeaderSlice := [(⟨some (ascii ":status")⟩, ⟨some (ascii "401")⟩)]

/-- The service denies a request, which `callout-sahl` hears. -/
def deniedCallout : List State.Label :=
  [.requestHeaders true, .worker { id := 7 }, .worker { }, .worker { },
    .calloutDone 7 .success deniedAnswer [], .worker { }, .worker { }]

/-- The service denies a request, and the goroutine of `do-sahl` finds nothing. -/
def deniedDo : List State.Label :=
  [.requestHeaders true, .worker { }, .goroutine { }, .worker { }, .task 0 { id := 7 },
    .calloutDone 7 .success deniedAnswer [], .goroutine { }, .goroutine { }, .task 0 { }]

/-- A request that is denied passes `do-sahl`. -/
theorem same_contract_denied : ∃ s₁ s₂,
    run State.step (State.new 0 { handler := calloutHandler { } }) deniedCallout = some s₁ ∧
    run State.step (State.new 1 { handler := doHandler { } }) deniedDo = some s₂ ∧
    effects s₁.trace = reject 401 "denied" ∧ effects s₂.trace = [.other .continueRequest] := by
  obtain ⟨s₁, hrun₁, hs₁⟩ : ∃ s₁,
      run State.step (State.new 0 { handler := calloutHandler { } }) deniedCallout = some s₁ ∧
        CalloutSettled s₁ := ⟨_, rfl, by decide, rfl, rfl, rfl, rfl⟩
  obtain ⟨s₂, hrun₂, hs₂⟩ : ∃ s₂, run State.step (State.new 1 { handler := doHandler { } }) deniedDo =
      some s₂ ∧ GoSettled s₂ := ⟨_, rfl, by decide, rfl, rfl, by decide⟩
  have hdenied {ls : List State.Label} (hls : ∀ id result headers body,
      .calloutDone id result headers body ∈ ls → result = .success ∧ headers = deniedAnswer)
      (id : ℕ) (result : HttpCalloutResult) (headers : HeaderSlice) (body : List UnsafeEnvoyBuffer)
      (hl : .calloutDone id result headers body ∈ ls) :
      some (.success, readAnswer deniedAnswer) = some (result, readAnswer headers) := by
    obtain ⟨rfl, rfl⟩ := hls id result headers body hl
    rfl
  have hserves₁ : Serves deniedCallout (some (.success, readAnswer deniedAnswer)) :=
    ⟨hdenied (by simp +contextual [deniedCallout]), fun _ => by simp +contextual [deniedCallout]⟩
  have hserves₂ : Serves deniedDo (some (.success, readAnswer deniedAnswer)) := by
    refine ⟨hdenied (by simp +contextual [deniedDo]), fun _ => ⟨by simp +contextual [deniedDo],
      fun i c hl => ?_, by simp +contextual [deniedDo]⟩⟩
    have hc : (i = 0 ∧ c = { id := 7 }) ∨ i = 0 ∧ c = { } := by simpa [deniedDo] using hl
    obtain ⟨-, rfl⟩ | ⟨-, rfl⟩ := hc <;> rfl
  obtain ⟨heffects₁, c, hc, heffects₂, -⟩ := same_contract hrun₁ hs₁ hserves₁ hrun₂ hs₂ hserves₂
  obtain rfl : c = { } := by simpa [deniedDo] using hc
  exact ⟨s₁, s₂, hrun₁, hrun₂, heffects₁, heffects₂⟩

end Luwes.CalloutFilters
