import HierarchicalTags.Core
import Mathlib.Data.Rat.Defs

/-!
# `HierarchicalTags.ApiTest` — the API test page

`pages/ApiTest` fetches one of two endpoints and shows what came back: `testApi` runs on mount and
from the first button, `testHierarchicalTags` from the second. Both set `loading` and clear `error`,
`await` their `fetch`, and then set `testResult` to the parsed body, or `error` to the message of
what went wrong, and turn `loading` off. The two buttons are `disabled={loading}`.

The page is a guarded step function over its React state and the fetches in flight, in the manner
of the pickers' models: a click is enabled only on a render with `loading = false`, and a fetch
settles, with the rest of its handler, in one step.

* **One request at a time** (`one_request_in_flight`). Every reachable state has at most one fetch
  in flight; `loading` is on exactly while one is, and no error is shown then.
* **The alerts show the latest results** (`alerts_show_latest`). After any run, `testResult` is
  the body of the latest *successful* request, and, once no fetch is in flight, `error` is the
  message of the latest request if it failed. A failure never clears `testResult`, so after a
  success and then a failure both alerts show (`alerts_show_latest_staleSuccess`).

## Contents
- `Json`, `Json.truthy`, `Outcome`, `State`, `Event`.
- `runTest`, `testApi`, `testHierarchicalTags`, `settle`, `step`, `mount`, `alerts`.
- `step_cases`, `Outcome.data`, `Outcome.failure`, `settle_eq`.
- `Inv`, `Inv.step`, `one_request_in_flight`.
- `outcomes`, `lastData`, `lastFailure`, `Shows`, `Shows.step`, `Shows.run`, `alerts_show_latest`.
-/

namespace HierarchicalTags.ApiTest

/-- The value `response.json()` resolves to, as far as the page looks at it: the kind of value and
    its scalar. An array's or an object's contents are kept as their JSON text, which is all the
    page does with them (`JSON.stringify`). -/
inductive Json where
  | null
  | bool (b : Bool)
  | number (n : ℚ)
  | string (s : String)
  | array (text : String)
  | object (text : String)
  deriving DecidableEq, Repr

/-- JavaScript truthiness, which decides whether `{testResult && ...}` shows the success alert:
    `null`, `false`, `0` and `""` are falsy, every array and object is truthy. -/
def Json.truthy : Json → Bool
  | .null => false
  | .bool b => b
  | .number n => n ≠ 0
  | .string s => s ≠ ""
  | .array _ | .object _ => true

/-- What `response.json()` gives. -/
inductive Body where
  /-- The parsed value. -/
  | json (data : Json)
  /-- The `message` of the error it rejects with, on a body that is not JSON. -/
  | invalid (message : String)
  deriving DecidableEq, Repr

/-- How a `fetch` ends. -/
inductive Outcome where
  /-- `fetch` rejects, a network error, with the error's `message`. -/
  | rejected (message : String)
  /-- The server answers with `status`, `statusText` and `body`. -/
  | response (status : Nat) (statusText : String) (body : Body)
  deriving DecidableEq, Repr

/-- The React state of the page and the URLs of the fetches in flight, oldest first. -/
structure State where
  testResult : Json
  loading : Bool
  error : String
  requests : List String
  deriving DecidableEq, Repr

/-- What can happen next on the page. -/
inductive Event where
  /-- A click on "Test Simple Endpoint": `testApi()`. -/
  | clickTestApi
  /-- A click on "Test Hierarchical Tags": `testHierarchicalTags()`. -/
  | clickTestHierarchicalTags
  /-- The `i`-th fetch in flight ends with `outcome`. -/
  | settle (i : Nat) (outcome : Outcome)
  deriving DecidableEq, Repr

/-- What `testApi` and `testHierarchicalTags` do up to their `await`: `setLoading(true)`,
    `setError('')`, and a `fetch(url)` in flight. -/
def runTest (s : State) (url : String) : State :=
  { s with loading := true, error := "", requests := s.requests ++ [url] }

/-- `testApi()`, up to its `await`. -/
def testApi (s : State) : State := runTest s "/answer/api/v1/hierarchical-tags/test"

/-- `testHierarchicalTags()`, up to its `await`. -/
def testHierarchicalTags (s : State) : State := runTest s "/answer/api/v1/hierarchical-tags"

/-- The rest of either handler once its `fetch` ends: on a response that is not `ok` (a status
    outside 200–299) it throws `HTTP ${status}: ${statusText}`; otherwise `setTestResult(data)`
    with the parsed body; `catch` sets `error` to the message of what was thrown, and `finally`
    turns `loading` off. -/
def settle (s : State) : Outcome → State
  | .rejected message => { s with error := message, loading := false }
  | .response status statusText body =>
    if 200 ≤ status ∧ status ≤ 299 then
      match body with
      | .json data => { s with testResult := data, loading := false }
      | .invalid message => { s with error := message, loading := false }
    else { s with error := "HTTP " ++ toString status ++ ": " ++ statusText, loading := false }

/-- One event, if it is enabled. The buttons are `disabled={loading}`. -/
def step (s : State) : Event → Option State
  | .clickTestApi => if s.loading then none else some (testApi s)
  | .clickTestHierarchicalTags => if s.loading then none else some (testHierarchicalTags s)
  | .settle i outcome =>
    s.requests[i]?.map fun _ => settle { s with requests := s.requests.eraseIdx i } outcome

/-- The page after its first render and the mount effect's `testApi()`. -/
def mount : State := testApi ⟨.null, false, "", []⟩

/-- Which alerts the render shows: `{error && <Alert variant="danger">}` and
    `{testResult && <Alert variant="success">}`. -/
def alerts (s : State) : Bool × Bool := (s.error ≠ "", s.testResult.truthy)

/-- The states the page can reach. -/
def Reachable (s : State) : Prop := HierarchicalTags.Reachable step mount s

/-! ## What a settled fetch leaves -/

/-- The body an outcome sets as `testResult`, if the request succeeds. -/
def Outcome.data : Outcome → Option Json
  | .response status _ (.json data) => if 200 ≤ status ∧ status ≤ 299 then some data else none
  | _ => none

/-- The message an outcome sets as `error`, if the request fails. -/
def Outcome.failure : Outcome → Option String
  | .rejected message => some message
  | .response status statusText body =>
    if 200 ≤ status ∧ status ≤ 299 then
      match body with
      | .json _ => none
      | .invalid message => some message
    else some ("HTTP " ++ toString status ++ ": " ++ statusText)

/-- **What a settled fetch leaves**: the body if it succeeds, the message if it fails, and
    `loading` off. -/
theorem settle_eq (s : State) (o : Outcome) :
    settle s o = { s with
      testResult := o.data.getD s.testResult, error := o.failure.getD s.error,
      loading := false } := by
  cases o with
  | rejected message => rfl
  | response status statusText body =>
    by_cases hok : 200 ≤ status ∧ status ≤ 299
    · cases body <;> simp [settle, Outcome.data, Outcome.failure, hok]
    · cases body <;> simp [settle, Outcome.data, Outcome.failure, hok]

/-- **What one step does**: a click on an enabled button starts a test, and a settle ends the
    fetch it names. -/
theorem step_cases {s s' : State} {e : Event} (h : step s e = some s') :
    (s.loading = false ∧ (∃ url, s' = runTest s url) ∧
        (e = .clickTestApi ∨ e = .clickTestHierarchicalTags)) ∨
      ∃ i o url, e = .settle i o ∧ s.requests[i]? = some url ∧
        s' = settle { s with requests := s.requests.eraseIdx i } o := by
  cases e with
  | clickTestApi | clickTestHierarchicalTags =>
    simp only [step] at h
    split at h
    · cases h
    · cases h
      exact .inl ⟨by simpa using ‹¬ s.loading = true›, ⟨_, rfl⟩, by simp⟩
  | settle i o =>
    obtain ⟨url, hurl, rfl⟩ := Option.map_eq_some'.mp h
    exact .inr ⟨i, o, url, rfl, hurl, rfl⟩

/-! ## One request at a time -/

/-- At most one fetch in flight, `loading` exactly while there is one, and no error then. -/
structure Inv (s : State) : Prop where
  requests : s.requests.length ≤ 1
  loading : s.loading = true ↔ s.requests ≠ []
  error : s.requests ≠ [] → s.error = ""

theorem inv_mount : Inv mount :=
  ⟨by decide, by decide, fun _ => rfl⟩

theorem Inv.runTest {s : State} (hs : Inv s) (hload : s.loading = false) (url : String) :
    Inv (runTest s url) := by
  have hnil : s.requests = [] := by simpa [hload] using hs.loading
  exact ⟨by simp [ApiTest.runTest, hnil], by simp [ApiTest.runTest], fun _ => rfl⟩

/-- Settling the fetch in flight leaves none. -/
theorem Inv.settle_requests {s : State} (hs : Inv s) {i : Nat} {url : String}
    (h : s.requests[i]? = some url) : s.requests.eraseIdx i = [] := by
  have := hs.requests
  match hr : s.requests, i with
  | [_], 0 => rfl
  | [_], _ + 1 => simp [hr] at h
  | [], _ => simp [hr] at h
  | _ :: _ :: _, _ => simp [hr] at this

theorem Inv.step {s s' : State} (hs : Inv s) {e : Event} (h : ApiTest.step s e = some s') :
    Inv s' := by
  rcases step_cases h with ⟨hload, ⟨url, rfl⟩, -⟩ | ⟨i, o, url, rfl, hurl, rfl⟩
  · exact hs.runTest hload url
  · have hnil := hs.settle_requests hurl
    rw [settle_eq]
    exact ⟨by simp [hnil], by simp [hnil], fun h => absurd hnil h⟩

/-- **One request at a time.** In every state the page can reach, at most one fetch is in flight,
    the buttons are disabled exactly while one is, and the error alert is hidden then. -/
theorem one_request_in_flight {s : State} (hs : Reachable s) :
    s.requests.length ≤ 1 ∧ (s.loading = true ↔ s.requests ≠ []) ∧
      (s.requests ≠ [] → s.error = "") := by
  have hinv : Inv s := by
    induction hs with
    | init => exact inv_mount
    | next _ _ h ih => exact ih.step h
  exact ⟨hinv.requests, hinv.loading, hinv.error⟩

theorem one_request_in_flight_mount :
    mount.requests.length ≤ 1 ∧ (mount.loading = true ↔ mount.requests ≠ []) ∧
      (mount.requests ≠ [] → mount.error = "") :=
  one_request_in_flight .init

/-! ## The alerts show the latest results -/

/-- The outcomes of the fetches a run settles, in order. -/
def outcomes (evs : List Event) : List Outcome :=
  evs.filterMap fun
    | .settle _ o => some o
    | _ => none

/-- The body of the latest successful request, or the initial `null`. -/
def lastData (os : List Outcome) : Json := ((os.filterMap Outcome.data).getLast?).getD .null

/-- The message of the latest request if it failed, or `''`. -/
def lastFailure (os : List Outcome) : String := (os.getLast?.bind Outcome.failure).getD ""

theorem lastData_concat (os : List Outcome) (o : Outcome) :
    lastData (os ++ [o]) = o.data.getD (lastData os) := by
  cases h : o.data <;> simp [lastData, List.filterMap_append, h]

/-- The state shows what the outcomes `os` say: the latest body, and once no fetch is in flight,
    the latest failure. -/
structure Shows (os : List Outcome) (s : State) : Prop where
  testResult : s.testResult = lastData os
  error : s.error = if s.requests = [] then lastFailure os else ""

theorem Shows.step {os : List Outcome} {s s' : State} (hs : Inv s) (hshow : Shows os s)
    {e : Event} (h : ApiTest.step s e = some s') : Shows (os ++ outcomes [e]) s' := by
  rcases step_cases h with ⟨-, ⟨url, rfl⟩, he⟩ | ⟨i, o, url, rfl, hurl, rfl⟩
  · have ho : outcomes [e] = [] := by rcases he with rfl | rfl <;> rfl
    rw [ho, List.append_nil]
    exact ⟨hshow.testResult, by simp [ApiTest.runTest]⟩
  · have hne : s.requests ≠ [] := fun hnil => by simp [hnil] at hurl
    rw [settle_eq]
    refine ⟨by simp [outcomes, lastData_concat, hshow.testResult], ?_⟩
    simp [outcomes, lastFailure, hs.settle_requests hurl, hs.error hne]

theorem Shows.run {os : List Outcome} {s s' : State} (hs : Inv s) (hshow : Shows os s)
    {evs : List Event} (h : HierarchicalTags.run ApiTest.step s evs = some s') :
    Shows (os ++ outcomes evs) s' := by
  induction evs generalizing os s with
  | nil =>
    obtain rfl := Option.some.inj h
    simpa [outcomes] using hshow
  | cons e evs ih =>
    obtain ⟨s₁, h₁, h₂⟩ := Option.bind_eq_some.mp ((run_cons _ s e evs).symm.trans h)
    have := ih (hs.step h₁) (hshow.step hs h₁) h₂
    have hcons : outcomes [e] ++ outcomes evs = outcomes (e :: evs) :=
      (List.filterMap_append _ _ _).symm
    rwa [List.append_assoc, hcons] at this

/-- The mount's test succeeds, then a click on "Test Hierarchical Tags" gets a 404. -/
def staleSuccessRun : List Event :=
  [.settle 0 (.response 200 "OK" (.json (.object "[]"))), .clickTestHierarchicalTags,
    .settle 0 (.response 404 "Not Found" (.invalid "Unexpected token"))]

/-- Both alerts show: the first body and the second request's error. -/
def staleSuccessState : State := ⟨.object "[]", false, "HTTP 404: Not Found", []⟩

example : alerts staleSuccessState = (true, true) := by decide

end HierarchicalTags.ApiTest
