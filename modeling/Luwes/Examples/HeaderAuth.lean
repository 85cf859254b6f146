import Luwes.Lib.PooledStreams
import Luwes.Sahl.HeaderReaders
import Luwes.Sahl.PassedStrings
import Luwes.Sahl.Straight

/-!
# Filters that ask for a key

The repository has the same filter three times: by hand over the ABI (`examples/header-auth`), as a sahl
handler (`sahl/examples/header-auth`), and with a list of keys, metrics and metadata
(`sahl/examples/auth`).  A request passes when its `x-api-key` has a first value that is not empty and, for
the third, is in the list.

The first two are two implementations of one thing.  One keeps a handle in an object of a pool, which has
been other streams' before, and reads the host's buffer; the other reads through the cache of a pooled
`Request` and queues what it does in a pooled Writer.  On the same headers they do the same, but for the
detail of the reply (`decide_alike`).

The third puts the key into the metadata too.  The key is the host's memory, and the header is set first, so
what the metadata gets is what is in that memory then.
-/

namespace Luwes.HeaderAuth

open LabelledRun PooledStreams Sahl AbiImpl

/-- The header that both read. -/
def apiKey : GoString := ascii "x-api-key"

/-- The body of both rejections. -/
def missingKey : Bytes := ascii "\x7b\"error\":\"missing x-api-key\"\x7d"

/-! ## By hand (`header_auth.go`) -/

/-- `Filter`. -/
structure Filter (ι : Type*) where
  handle : Option ι := none

/-- A callback. -/
inductive Op
  | requestHeaders (headers : HostHeaders)
  | requestBody
  | requestTrailers
  | responseHeaders
  | responseBody
  | responseTrailers
  | streamComplete

/-- What a callback calls on which handle, and what it returns. -/
inductive Answer (ι : Type*)
  | headers (calls : List (ι × Sahl.HostEvent)) (st : HeadersStatus)
  | body (st : BodyStatus)
  | trailers (st : TrailersStatus)
  | done

namespace Filter

variable {ι : Type*}

/-- `OnRequestHeaders`; a nil handle panics. -/
def onRequestHeaders (f : Filter ι) (headers : HostHeaders) : Option (Answer ι) :=
  let (found, key) := headers.getOneInto apiKey
  f.handle.map fun handle =>
    if !found || key.len = 0 then
      .headers [(handle, .sendLocalResponse 401 [] missingKey (ascii "auth"))] .statusStop
    else
      .headers [(handle, .setRequestHeader ⟨ascii "x-user-id", key.toString⟩)] .statusContinue

/-- A callback.  `OnStreamComplete` lets go of the handle before it gives the filter back. -/
def step (f : Filter ι) : Op → Option (Filter ι × Answer ι)
  | .requestHeaders headers => (f.onRequestHeaders headers).map fun a => (f, a)
  | .requestBody | .responseBody => some (f, .body .statusContinue)
  | .requestTrailers | .responseTrailers => some (f, .trailers .statusContinue)
  | .responseHeaders => some (f, .headers [] .statusContinue)
  | .streamComplete => some ({ f with handle := none }, .done)

end Filter

/-- `Factory`: the pool and `Create`. -/
def factory (ι : Type*) : Code ι (Filter ι) Op (Answer ι) where
  new := {}
  create i f := { f with handle := some i }
  step := Filter.step
  last
    | .streamComplete => true
    | _ => false

/-! ## As a handler (`header_auth_sahl.go`) -/

/-- The calls of `Handler`. -/
def handler (header : Header) : List UserCall :=
  match header.peek apiKey with
  | none => [.send 401 missingKey]
  | some key =>
    if key.length = 0 then [.send 401 missingKey] else [.setRequestHeader (ascii "x-user-id") key]

/-! ## One filter -/

/-- What the filter does with the first value of the header. -/
def decision (detail key : GoString) : Sahl.HostEvent × HeadersStatus :=
  if key = [] then (.sendLocalResponse 401 [] missingKey detail, .statusStop)
  else (.setRequestHeader ⟨ascii "x-user-id", key⟩, .statusContinue)

section

variable {ι : Type*}

/-- A filter that has never been another stream's. -/
def alone (ι : Type*) : Machine ι (Filter ι) Op (Answer ι) where
  init i := { handle := some i }
  step := Filter.step

/-- A pooled filter has the handle of the stream that has it. -/
lemma factory_refines : Refines (factory ι) (alone ι) (fun _ => True)
    (fun i f b => f.handle = some i ∧ b = f) where
  new := trivial
  create _ _ _ := ⟨rfl, rfl⟩
  step i f b op f' out hR hstep := by
    obtain ⟨hhandle, rfl⟩ := hR
    refine ⟨f', hstep, ?_⟩
    cases op with
    | streamComplete => trivial
    | requestHeaders headers =>
        obtain ⟨a, -, heq⟩ := Option.map_eq_some_iff.mp hstep
        obtain ⟨rfl, -⟩ := Prod.mk.inj heq
        exact ⟨hhandle, rfl⟩
    | _ =>
        obtain ⟨rfl, -⟩ := Prod.mk.inj (Option.some.inj hstep)
        exact ⟨hhandle, rfl⟩

lemma onRequestHeaders_eq (i : ι) (host : HostHeaders) :
    ({ handle := some i } : Filter ι).onRequestHeaders host =
      some (.headers [(i, (decision (ascii "auth") (host.first apiKey)).1)]
        (decision (ascii "auth") (host.first apiKey)).2) := by
  obtain ⟨hbytes, hfalse⟩ := host.getOneInto_bytes apiKey
  have hread : (!(host.getOneInto apiKey).1 || decide ((host.getOneInto apiKey).2.len = 0)) =
      decide (host.first apiKey = []) := by
    cases hfound : (host.getOneInto apiKey).1 with
    | false => simp [hfalse hfound]
    | true => simp [← hbytes, UnsafeEnvoyBuffer.len, UnsafeEnvoyBuffer.bytes]
  simp only [Filter.onRequestHeaders, Option.map_some, hread, decide_eq_true_eq, decision,
    UnsafeEnvoyBuffer.toString_eq_bytes, hbytes]
  split_ifs <;> rfl

/-- If the callback is `OnRequestHeaders`, it has answered with the decision, on the handle of stream `i`. -/
def Decides (i : ι) (e : Entry ι Op (Answer ι)) : Prop :=
  ∀ host, e.op = .requestHeaders host →
    e.out = .headers [(i, (decision (ascii "auth") (host.first apiKey)).1)]
      (decision (ascii "auth") (host.first apiKey)).2

lemma decides_alone {i : ι} {es : List (Entry ι Op (Answer ι))} {b : Filter ι}
    (h : (alone ι).Answers i es b) : (b.handle = some i ∨ b.handle = none) ∧ ∀ e ∈ es, Decides i e := by
  refine h.invariant (P := fun es b => (b.handle = some i ∨ b.handle = none) ∧ ∀ e ∈ es, Decides i e)
    ⟨.inl rfl, by simp⟩ ?_
  rintro es ⟨handle⟩ ⟨_, op, out⟩ b' ⟨hhandle, hes⟩ hstep
  rw [List.forall_mem_append, List.forall_mem_singleton]
  cases op with
  | requestHeaders headers =>
      obtain ⟨a, ha, heq⟩ := Option.map_eq_some_iff.mp hstep
      obtain ⟨rfl, rfl⟩ := Prod.mk.inj heq
      refine ⟨hhandle, hes, fun host hop => ?_⟩
      obtain rfl := Op.requestHeaders.inj hop
      rcases hhandle with hsome | hnone
      · obtain rfl : handle = some i := hsome
        exact (Option.some.inj ((onRequestHeaders_eq i headers).symm.trans ha)).symm
      · obtain rfl : handle = none := hnone
        cases ha
  | streamComplete =>
      obtain ⟨rfl, rfl⟩ := Prod.mk.inj (Option.some.inj hstep)
      exact ⟨.inr rfl, hes, fun host hop => by cases hop⟩
  | _ =>
      obtain ⟨rfl, rfl⟩ := Prod.mk.inj (Option.some.inj hstep)
      exact ⟨hhandle, hes, fun host hop => by cases hop⟩

end

lemma view_handler (r : ℕ) {header : Header} {host : HostHeaders} (hI : header.CacheSound host) :
    view r (handler header) =
      [(decision (ascii "sahl") (host.first apiKey)).1,
        .headersStatus (decision (ascii "sahl") (host.first apiKey)).2] := by
  rw [handler, hI.peek, decision]
  split_ifs with hkey
  · rfl
  · have hlen : ¬ (host.first apiKey).length = 0 := mt List.length_eq_zero_iff.mp hkey
    simp only [if_neg hlen]
    rfl

/-- **The two implementations decide alike.**  Take a stream of the first, in any run in which streams come
and go and share the pooled filters, and a run of the second whose handler has returned: on the same headers
both have made the one call and returned the one status that the first value of the key asks for, the first
of them on the handle of its own stream. -/
theorem decide_alike {ι : Type*} [DecidableEq ι] {ls : List (PooledStreams.Label ι Op)}
    {s : System ι (Filter ι) Op (Answer ι)} (hraw : run (System.step (factory ι)) {} ls = some s) {i : ι}
    {host : HostHeaders} {out : Answer ι} (hentry : ⟨i, .requestHeaders host, out⟩ ∈ s.trace)
    {header : Header} {r : ℕ} {ls' : List State.Label} {s' : State}
    (hsahl : run State.step
      (State.new r { handler := straight (handler (header.reset host.headerMap)) }) ls' = some s')
    (hcalled : s'.phase ≠ .awaitingHeaders) (hstack : s'.stack = []) :
    let d := decision (ascii "auth") (host.first apiKey)
    let d' := decision (ascii "sahl") (host.first apiKey)
    out = .headers [(i, d.1)] d.2 ∧ hostView s'.trace = [d'.1, .headersStatus d'.2] ∧
      (d.2 = .statusContinue ↔ host.first apiKey ≠ []) := by
  refine ⟨?_, ?_, ?_⟩
  · obtain ⟨b, hanswers⟩ := (System.isolated_run factory_refines hraw).answered i
    exact (decides_alone hanswers).2 _ (List.mem_filter.mpr ⟨hentry, by simp⟩) host rfl
  · rw [(State.straight_run hsahl).2 hcalled hstack, view_handler r (header.cacheSound_reset host)]
  · rw [decision]
    split_ifs with hkey <;> simp [hkey]

/-- The second stream of a run, with the filter that the first has given back, and a sahl filter: a request
with a key passes both. -/
theorem decide_alike_pooled :
    let host := HostHeaders.ofPairs [(ascii "X-Api-Key", ascii "k")]
    ∃ (s : System ℕ (Filter ℕ) Op (Answer ℕ)) (s' : State) (out : Answer ℕ),
      run (System.step (factory ℕ)) {} [.create 0 none, .callback 0 .streamComplete, .create 1 (some 0),
        .callback 1 (.requestHeaders host)] = some s ∧
      run State.step (State.new 0 { handler := straight (handler (({ } : Header).reset host.headerMap)) })
        [.requestHeaders true, .worker { }, .worker { }] = some s' ∧
      out = .headers [(1, .setRequestHeader ⟨ascii "x-user-id", ascii "k"⟩)] .statusContinue ∧
      hostView s'.trace =
        [.setRequestHeader ⟨ascii "x-user-id", ascii "k"⟩, .headersStatus .statusContinue] := by
  intro host
  obtain ⟨s, hraw, out, hentry⟩ : ∃ s : System ℕ (Filter ℕ) Op (Answer ℕ),
      run (System.step (factory ℕ)) {} [.create 0 none, .callback 0 .streamComplete, .create 1 (some 0),
        .callback 1 (.requestHeaders host)] = some s ∧
      ∃ out, ⟨1, .requestHeaders host, out⟩ ∈ s.trace := ⟨_, rfl, _, List.mem_cons_of_mem _ List.mem_cons_self⟩
  obtain ⟨s', hsahl, hcalled, hstack⟩ : ∃ s',
      run State.step (State.new 0 { handler := straight (handler (({ } : Header).reset host.headerMap)) })
        [.requestHeaders true, .worker { }, .worker { }] = some s' ∧
      s'.phase ≠ .awaitingHeaders ∧ s'.stack = [] := ⟨_, rfl, by decide, rfl⟩
  obtain ⟨hout, hview, -⟩ := decide_alike hraw hentry hsahl hcalled hstack
  exact ⟨s, s', out, hraw, hsahl, hout, hview⟩

/-! ## With a list of keys (`auth.go`) -/

/-- `Config`, with the default that the factory sets. -/
structure Config where
  allowedKeys : List GoString := []
  metadataNS : GoString := ascii "auth"

/-- The body for a key that is not in the list. -/
def invalidKey : Bytes := ascii "\x7b\"error\":\"invalid x-api-key\"\x7d"

/-- A rejection. -/
def rejection (cfg : Config) (reqTotal : ℕ) (body : Bytes) : StringHandler :=
  .make [.owned (ascii "rejected")] fun tags =>
    .call (.incrementCounter reqTotal 1 ⟨tags, 0, 1⟩)
      (.call
        (.setMetadata ⟨.owned cfg.metadataNS, .owned (ascii "result"), .string (.owned (ascii "rejected"))⟩)
        (.call (.setResponseHeader ⟨.owned (ascii "content-type"), .owned (ascii "application/json")⟩)
          (.call (.send 401 (.owned body)) .ret)))

/-- The handler that the factory makes for a listener. -/
def authHandler (cfg : Config) (reqTotal : ℕ) : StringHandler :=
  .peek apiKey fun
    | none => rejection cfg reqTotal missingKey
    | some (s, key) =>
      if key.length = 0 then rejection cfg reqTotal missingKey
      else if key ∉ cfg.allowedKeys then rejection cfg reqTotal invalidKey
      else
        .make [.owned (ascii "allowed")] fun tags =>
          .call (.incrementCounter reqTotal 1 ⟨tags, 0, 1⟩)
            (.call
              (.setMetadata
                ⟨.owned cfg.metadataNS, .owned (ascii "result"), .string (.owned (ascii "allowed"))⟩)
              (.call (.setMetadata ⟨.owned cfg.metadataNS, .owned (ascii "key"), .string s⟩)
                (.call (.setRequestHeader ⟨.owned (ascii "x-user-id"), s⟩) .ret)))

/-- `loggingMiddleware`; it logs, and makes no other call. -/
def loggingMiddleware : Layer where
  pre := []
  handsOn := true
  post := []

/-- The filter of a listener, for a request whose values the host has at `addr`; `mem n` is the host's memory
after `n` headers are set. -/
def listenerFilter (cfg : Config) (reqTotal : ℕ) (addr : GoString → ℕ) (mem : ℕ → HostMemory)
    (header : Header) : FilterDef where
  handler :=
    chain (straight ((authHandler cfg reqTotal).passed addr mem header))
      ([loggingMiddleware].map (·.middleware))

/-- What the host sees of a request with this first value of the key, when `shown` is in its place after the
header has been set. -/
def authView (cfg : Config) (reqTotal : ℕ) (key shown : GoString) : List Sahl.HostEvent :=
  if key ≠ [] ∧ key ∈ cfg.allowedKeys then
    [.setRequestHeader ⟨ascii "x-user-id", key⟩,
      .setMetadata ⟨cfg.metadataNS, ascii "result", .string (ascii "allowed")⟩,
      .setMetadata ⟨cfg.metadataNS, ascii "key", .string shown⟩,
      .metric ⟨reqTotal, 1, [ascii "allowed"], false⟩,
      .headersStatus .statusContinue]
  else
    [.sendLocalResponse 401 [⟨ascii "content-type", ascii "application/json"⟩]
        (if key = [] then missingKey else invalidKey) (ascii "sahl"),
      .headersStatus .statusStop]

/-- The first value of the key, where the host has it. -/
def keyString (addr : GoString → ℕ) (host : HostHeaders) : HostString :=
  .host (addr apiKey) (host.first apiKey).length

variable {cfg : Config} {reqTotal : ℕ} {addr : GoString → ℕ} {mem : ℕ → HostMemory}

lemma peeked_apiKey (header : Header) (host : HostHeaders) :
    StringHandler.peeked addr (header.reset host.headerMap) apiKey =
      if host.first apiKey = [] then none else some (keyString addr host, host.first apiKey) := by
  have hI := header.cacheSound_reset host
  have hlower : asciiToLower apiKey = apiKey := by decide
  have hstring : (header.reset host.headerMap).peekString addr apiKey =
      ((header.reset host.headerMap).lookup apiKey).map fun buf => .host (addr apiKey) buf.len := by
    rw [Header.peekString, hlower]
    rfl
  rw [StringHandler.peeked, hstring, hI.peek]
  rcases hI.lookup apiKey with ⟨hlookup, hempty⟩ | ⟨buf, hlookup, -, hbytes, hne⟩
  · rw [hlookup, if_pos hempty, if_pos hempty]
    rfl
  · rw [hlookup, if_neg hne, if_neg hne, keyString, ← hbytes]
    rfl

lemma view_authHandler (r : ℕ) {header : Header} {host : HostHeaders}
    (hmem : (keyString addr host).read (mem 0) = host.first apiKey) :
    view r ((authHandler cfg reqTotal).passed addr mem (header.reset host.headerMap)) =
      authView cfg reqTotal (host.first apiKey) ((keyString addr host).read (mem 1)) := by
  have hpassed (h : Header) (k : Option (HostString × GoString) → StringHandler) :
      (StringHandler.peek apiKey k).passed addr mem h =
        (k (StringHandler.peeked addr h apiKey)).passed addr mem h := rfl
  rw [authHandler, hpassed, peeked_apiKey, authView]
  by_cases hkey : host.first apiKey = []
  · rw [if_pos hkey]
    simp only [hkey]
    rfl
  · have hlen : ¬ (host.first apiKey).length = 0 := mt List.length_eq_zero_iff.mp hkey
    rw [if_neg hkey]
    dsimp only
    rw [if_neg hlen]
    by_cases hallowed : host.first apiKey ∈ cfg.allowedKeys
    · rw [if_neg (not_not.mpr hallowed), if_pos ⟨hkey, hallowed⟩]
      change view r
        [.incrementCounter reqTotal 1 [ascii "allowed"],
          .setMetadata cfg.metadataNS (ascii "result") (.string (ascii "allowed")),
          .setMetadata cfg.metadataNS (ascii "key") (.string ((keyString addr host).read (mem 1))),
          .setRequestHeader (ascii "x-user-id") ((keyString addr host).read (mem 0))] = _
      rw [hmem]
      rfl
    · rw [if_pos hallowed, if_neg fun h => hallowed h.2, if_neg hkey]
      rfl

/-- **A key that is not in the list never passes**, and one that is always does.  In every run of a
listener's filter the host sees a beginning of `authView`, and all of it when the handler has returned.  What
is asked for before a rejection, the counter and the metadata, never reaches the host; and the key in the
metadata is what the host's memory holds after the header has been set. -/
theorem listenerFilter_decides {host : HostHeaders} {header : Header} {r : ℕ} {ls : List State.Label}
    {s : State} (hmem : (keyString addr host).read (mem 0) = host.first apiKey)
    (hrun : run State.step
      (State.new r (listenerFilter cfg reqTotal addr mem (header.reset host.headerMap))) ls = some s) :
    let view := authView cfg reqTotal (host.first apiKey) ((keyString addr host).read (mem 1))
    hostView s.trace <+: view ∧ (s.phase ≠ .awaitingHeaders → s.stack = [] → hostView s.trace = view) := by
  have honion (cs : List UserCall) : onion [loggingMiddleware] cs = cs := List.append_nil _
  rw [listenerFilter, chain_straight, honion] at hrun
  rw [← view_authHandler r hmem]
  exact State.straight_run hrun

/-- A request with a key of the list; the host clears the memory when the header is set. -/
theorem listenerFilter_decides_allowed :
    let host := HostHeaders.ofPairs [(ascii "X-Api-Key", ascii "k")]
    let mem : ℕ → HostMemory := fun n _ => if n = 0 then 107 else 0
    ∃ s, run State.step
        (State.new 0 (listenerFilter { allowedKeys := [ascii "k"] } 7 (fun _ => 64) mem
          (({ } : Header).reset host.headerMap)))
        [.requestHeaders true, .worker { }, .worker { }, .worker { }, .worker { }, .worker { }] = some s ∧
      hostView s.trace = authView { allowedKeys := [ascii "k"] } 7 (ascii "k") [0] := by
  intro host mem
  obtain ⟨s, hrun, hcalled, hstack⟩ : ∃ s, run State.step
        (State.new 0 (listenerFilter { allowedKeys := [ascii "k"] } 7 (fun _ => 64) mem
          (({ } : Header).reset host.headerMap)))
        [.requestHeaders true, .worker { }, .worker { }, .worker { }, .worker { }, .worker { }] = some s ∧
      s.phase ≠ .awaitingHeaders ∧ s.stack = [] := ⟨_, rfl, by decide, rfl⟩
  exact ⟨s, hrun, (listenerFilter_decides rfl hrun).2 hcalled hstack⟩

end Luwes.HeaderAuth
