import Luwes.AbiImpl.HeaderMap
import Luwes.Sahl.FilterChain
import Luwes.Shared.Strings

/-!
# Serving an application from two filters (`sahl/examples/spa/spa.go`)

`api-backend` answers the paths below `/api/`, and `spa`, which comes after it, answers everything else with
a file that is part of the binary, or with the page that is its start.  The router behind them is not
reached: whatever the path is, whatever files there are and in whatever order the two move, one of them
answers (`served_inside`).
-/

namespace Luwes.Spa

open LabelledRun Sahl AbiImpl

/-- What the handlers use that is not theirs: the embedded files, `mime.TypeByExtension`, `json.Marshal` of a
map of strings, and the clock. -/
structure Env where
  readFile : GoString → Option Bytes
  indexHTML : Bytes
  typeByExtension : GoString → GoString
  marshal : List (GoString × GoString) → Bytes
  now : GoString

/-- `filepath.Ext`: from the last dot on, if it is in the last element of the path. -/
def ext (path : GoString) : GoString :=
  let backwards := path.reverse.takeWhile (· ≠ 47)
  match indexByte backwards 46 with
  | some i => (backwards.take (i + 1)).reverse
  | none => []

example : ext (ascii "/a.b/c.min.js") = ascii ".js" ∧ ext (ascii "/a.b/c") = [] := by decide

/-! ## The handlers -/

/-- `cacheControl`. -/
def cacheControl (path : GoString) : GoString :=
  if hasPrefix path (ascii "/assets/") then ascii "public, max-age=31536000, immutable"
  else ascii "no-cache"

/-- The path without its query. -/
def stripQuery (path : GoString) : GoString :=
  match indexByte path 63 with
  | some i => path.take i
  | none => path

/-- The type of a file. -/
def contentType (env : Env) (path : GoString) : GoString :=
  let ct := env.typeByExtension (ext path)
  if ct = [] then ascii "application/octet-stream" else ct

/-- The calls of `SPAHandler`. -/
def spaHandler (env : Env) (path : GoString) : List UserCall :=
  let path := stripQuery path
  match env.readFile (ascii "ui/dist" ++ path) with
  | some data =>
    [.setResponseHeader (ascii "content-type") (contentType env path),
      .setResponseHeader (ascii "cache-control") (cacheControl path),
      .send 200 data]
  | none =>
    [.setResponseHeader (ascii "content-type") (ascii "text/html; charset=utf-8"),
      .setResponseHeader (ascii "cache-control") (ascii "no-cache"),
      .send 200 env.indexHTML]

/-- The calls of `jsonResponse`. -/
def jsonResponse (env : Env) (status : ℤ) (v : List (GoString × GoString)) : List UserCall :=
  [.setResponseHeader (ascii "content-type") (ascii "application/json"), .send status (env.marshal v)]

/-- The calls of `serveHello`. -/
def serveHello (env : Env) (filterName path : GoString) : List UserCall :=
  jsonResponse env 200 [(ascii "message", ascii "hello from inside the .so"), (ascii "filter", filterName),
    (ascii "path", path)]

/-- The calls of `serveTime`. -/
def serveTime (env : Env) : List UserCall := jsonResponse env 200 [(ascii "time", env.now)]

/-- The calls of `APIHandler`. -/
def apiHandler (env : Env) (filterName path : GoString) : List UserCall :=
  if path = ascii "/api/hello" || hasPrefix path (ascii "/api/hello?") then serveHello env filterName path
  else if path = ascii "/api/time" || hasPrefix path (ascii "/api/time?") then serveTime env
  else if hasPrefix path (ascii "/api/") then
    jsonResponse env 404 [(ascii "error", ascii "not found"), (ascii "path", path)]
  else []

/-- `apiLogMiddleware`; it logs, and makes no other call. -/
def apiLogMiddleware : Layer where
  pre := []
  handsOn := true
  post := []

/-- The filters of the listener, for a request with these headers; the router is behind them. -/
def filters (env : Env) (headers : HeaderMap) : ℕ → FilterDef
  | 0 =>
    { handler := chain
        (straight (apiHandler env (ascii "api-backend") (Request.copyHeader headers ":path")))
        ([apiLogMiddleware].map (·.middleware)) }
  | 1 => { handler := straight (spaHandler env (Request.copyHeader headers ":path")) }
  | _ => { handler := straight [] }

/-! ## What the host sees -/

/-- The calls of the filters. -/
def calls (env : Env) (path : GoString) : ℕ → List UserCall
  | 0 => apiHandler env (ascii "api-backend") path
  | 1 => spaHandler env path
  | _ => []

lemma filters_eq (env : Env) (headers : HeaderMap) :
    filters env headers =
      fun j => { handler := straight (calls env (Request.copyHeader headers ":path") j) } := by
  funext j
  match j with
  | 0 =>
      rw [filters, chain_straight, calls]
      congr 2
      exact List.append_nil _
  | 1 | _ + 2 => rfl

/-- What the host sees of a reply. -/
def reply (statusCode : UInt32) (headers : List HeaderMut) (body : Bytes) : List Sahl.HostEvent :=
  [.sendLocalResponse statusCode headers body (ascii "sahl"), .headersStatus .statusStop]

/-- The path is one of `api-backend`. -/
def isApi (path : GoString) : Bool := hasPrefix path (ascii "/api/")

/-- What `spa` answers with. -/
def page (env : Env) (path : GoString) : Bytes :=
  (env.readFile (ascii "ui/dist" ++ stripQuery path)).getD env.indexHTML

variable {env : Env} {path : GoString}

/-- A path that is served by its name, with or without a query. -/
lemma isApi_of_served {name query : GoString} (hname : isApi name = true) (hquery : isApi query = true)
    (h : (path = name || hasPrefix path query) = true) : isApi path = true := by
  rcases Bool.or_eq_true_iff.mp h with heq | hbegins
  · rwa [of_decide_eq_true heq]
  · exact decide_eq_true ((of_decide_eq_true hquery).trans (of_decide_eq_true hbegins))

lemma view_jsonResponse (r : ℕ) (status : ℤ) (v : List (GoString × GoString)) :
    view r (jsonResponse env status v) =
      reply (UInt32.ofInt status) [⟨ascii "content-type", ascii "application/json"⟩] (env.marshal v) := rfl

/-- `api-backend` answers its own paths, and lets every other request pass. -/
lemma view_api (r : ℕ) (name : GoString) :
    if isApi path then ∃ code v, (code = 200 ∨ code = 404) ∧ view r (apiHandler env name path) =
      reply code [⟨ascii "content-type", ascii "application/json"⟩] (env.marshal v)
    else view r (apiHandler env name path) = [.headersStatus .statusContinue] := by
  rw [apiHandler]
  by_cases h₁ : (path = ascii "/api/hello" || hasPrefix path (ascii "/api/hello?")) = true
  · rw [if_pos (isApi_of_served (by decide) (by decide) h₁), if_pos h₁]
    exact ⟨200, _, .inl rfl, view_jsonResponse r 200 _⟩
  · rw [if_neg h₁]
    by_cases h₂ : (path = ascii "/api/time" || hasPrefix path (ascii "/api/time?")) = true
    · rw [if_pos (isApi_of_served (by decide) (by decide) h₂), if_pos h₂]
      exact ⟨200, _, .inl rfl, view_jsonResponse r 200 _⟩
    · rw [if_neg h₂]
      by_cases h₃ : hasPrefix path (ascii "/api/") = true
      · rw [if_pos h₃, isApi, if_pos h₃]
        exact ⟨404, _, .inr rfl, view_jsonResponse r 404 _⟩
      · rw [if_neg h₃, isApi, if_neg h₃]
        rfl

/-- `spa` answers every request. -/
lemma view_spa (r : ℕ) : ∃ ct cc, view r (spaHandler env path) =
    reply 200 [⟨ascii "content-type", ct⟩, ⟨ascii "cache-control", cc⟩] (page env path) := by
  rw [spaHandler, page]
  cases env.readFile (ascii "ui/dist" ++ stripQuery path) with
  | none => exact ⟨_, _, rfl⟩
  | some data => exact ⟨_, _, rfl⟩

lemma answers_of_view {r : ℕ} {cs : List UserCall} {code : UInt32} {headers : List HeaderMut} {body : Bytes}
    (h : view r cs = reply code headers body) : answers r cs = true := by
  rw [← State.any_view, h]
  rfl

/-! ## A request -/

/-- **Everything is served from inside the filters.**  In every run of a request through the two filters and
what is behind them, nothing behind them is called.  `api-backend` answers the paths below `/api/`, with
JSON, and then `spa` is not called; it lets all other requests pass, and those `spa` answers, with the file
of the path or with the start page. -/
theorem served_inside {headers : HeaderMap} {ls : List (ℕ × State.Label)} {fs : FilterChain}
    (hrun : run FilterChain.step (FilterChain.new (filters env headers)) ls = some fs) :
    let path := Request.copyHeader headers ":path"
    (∀ j, 2 ≤ j → (fs j).phase = .awaitingHeaders) ∧
      ((fs 0).phase ≠ .awaitingHeaders → (fs 0).stack = [] →
        if isApi path then ∃ code v, (code = 200 ∨ code = 404) ∧ hostView (fs 0).trace =
          reply code [⟨ascii "content-type", ascii "application/json"⟩] (env.marshal v)
        else hostView (fs 0).trace = [.headersStatus .statusContinue]) ∧
      ((fs 1).phase ≠ .awaitingHeaders → isApi path = false) ∧
      ((fs 1).phase ≠ .awaitingHeaders → (fs 1).stack = [] → ∃ ct cc, hostView (fs 1).trace =
        reply 200 [⟨ascii "content-type", ct⟩, ⟨ascii "cache-control", cc⟩] (page env path)) := by
  intro path
  rw [filters_eq] at hrun
  have h : FilterChain.InOrder (calls env path) fs := FilterChain.inOrder_run hrun
  have hspa : answers 1 (calls env path 1) = true := by
    obtain ⟨ct, cc, hview⟩ := @view_spa env path 1
    exact answers_of_view hview
  refine ⟨fun j hj => ?_, fun hcalled hstack => ?_, fun hcalled => ?_, fun hcalled hstack => ?_⟩
  · by_contra hcalled
    rw [(h.before j hcalled 1 hj).1] at hspa
    cases hspa
  · rw [(h.deciding 0).view_of_idle hcalled hstack]
    exact view_api 0 (ascii "api-backend")
  · by_contra hapi
    have hview := @view_api env path 0 (ascii "api-backend")
    rw [if_pos (Bool.not_eq_false _ ▸ hapi)] at hview
    obtain ⟨code, v, -, hview⟩ := hview
    have hpassed := (h.before 1 hcalled 0 Nat.one_pos).1
    rw [calls, answers_of_view hview] at hpassed
    cases hpassed
  · rw [(h.deciding 1).view_of_idle hcalled hstack]
    exact view_spa 1

/-- A request for a page that is not a file, in a run of the two filters. -/
theorem served_inside_page :
    let env : Env :=
      { readFile := fun _ => none, indexHTML := ascii "page", typeByExtension := fun _ => [],
        marshal := fun _ => [], now := [] }
    let headers : HeaderMap :=
      { getOneInto := fun key => if key = ascii ":path" then some ⟨some (ascii "/a?b")⟩ else none }
    ∃ fs, run FilterChain.step (FilterChain.new (filters env headers)) [(0, .requestHeaders true),
        (0, .worker { }), (1, .requestHeaders true), (1, .worker { }), (1, .worker { }), (1, .worker { }),
        (1, .worker { })] = some fs ∧
      hostView (fs 0).trace = [.headersStatus .statusContinue] ∧
      (∃ ct cc, hostView (fs 1).trace =
        reply 200 [⟨ascii "content-type", ct⟩, ⟨ascii "cache-control", cc⟩] (ascii "page")) ∧
      (fs 2).phase = .awaitingHeaders := by
  intro env headers
  obtain ⟨fs, hrun, hcalled₀, hstack₀, hcalled₁, hstack₁⟩ : ∃ fs,
      run FilterChain.step (FilterChain.new (filters env headers)) [(0, .requestHeaders true),
        (0, .worker { }), (1, .requestHeaders true), (1, .worker { }), (1, .worker { }), (1, .worker { }),
        (1, .worker { })] = some fs ∧
      (fs 0).phase ≠ .awaitingHeaders ∧ (fs 0).stack = [] ∧
        (fs 1).phase ≠ .awaitingHeaders ∧ (fs 1).stack = [] := ⟨_, rfl, by decide, rfl, by decide, rfl⟩
  obtain ⟨hrouter, hfirst, -, hsecond⟩ := served_inside hrun
  exact ⟨fs, hrun, hfirst hcalled₀ hstack₀, hsecond hcalled₁ hstack₁, hrouter 2 (Nat.le_refl 2)⟩

end Luwes.Spa
