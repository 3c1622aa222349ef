import Mathlib.Data.List.Nodup
import Mathlib.Data.Rat.Cast.Order
import TokenHub.Lib.Checks
import TokenHub.Rent.Rows

set_option autoImplicit false

namespace TokenHub.Status

open Lib.Checks
open Rent (Instant)

section Contract

def second : ℤ := 1000000

def windowSeconds : ℤ := 300

def componentKeys : List String :=
  ["service", "login", "attendance", "hall_pass", "payroll", "roster", "classroom_economy"]

def legacyComponentKeys : List String :=
  ["service", "login", "attendance", "payroll", "roster", "classroom_economy"]

structure Schema where
  componentKeys : List String
  /-- Whether its count fields hold the 404s that count as failed requests. -/
  countsFailures : Bool
deriving DecidableEq, Repr

def schemaVersion : String := "request-telemetry-v2"

def legacySchemaVersion : String := "request-telemetry-v1"

def schemas (version : String) : Option Schema :=
  if version = schemaVersion then some ⟨componentKeys, true⟩
  else if version = legacySchemaVersion then some ⟨legacyComponentKeys, false⟩
  else none

/-- A component's measurements. A legacy one has no field for failed requests at all. -/
structure Component where
  key : String
  collectionState : String
  requestCount : Option ℤ
  http1xxCount : Option ℤ
  http2xxCount : Option ℤ
  http3xxCount : Option ℤ
  http4xxCount : Option ℤ
  http404Count : Option ℤ
  http500Count : Option ℤ
  http5xxCount : Option ℤ
  http404FailureCount : Option (Option ℤ)
  p80Ms : Option ℚ
  p95Ms : Option ℚ
deriving DecidableEq, Repr

structure Snapshot where
  schemaVersion : String
  sampledAt : Instant
  windowSeconds : ℤ
  sourceLatestAt : Option Instant
  components : List Component
deriving DecidableEq, Repr

def diagnostics : List String :=
  ["TRANSPORT_UNAVAILABLE", "ACCESS_DENIED", "INVALID_SNAPSHOT", "STALE_SNAPSHOT"]

/-- Whether the component is one of `NOT_FOUND_FAILURE_ROUTES`. -/
def Component.designated (c : Component) : Bool := c.key = "hall_pass"

def notFoundFailures (c : Component) : ℤ := (c.http404FailureCount.getD none).getD 0

def notFoundFailureMinCount : ℤ := 3

def notFoundFailureRatePercent : ℚ := 2

def notFoundFailuresSignal (c : Component) : Bool :=
  let count := c.requestCount.getD 0
  count ≠ 0 ∧ notFoundFailureMinCount ≤ notFoundFailures c ∧
    notFoundFailureRatePercent < 100 * (notFoundFailures c : ℚ) / count

end Contract

section Validation

def unavailableComponent (key : String) (schema : Schema) : Component :=
  { key := key, collectionState := "UNAVAILABLE", requestCount := none, http1xxCount := none
    http2xxCount := none, http3xxCount := none, http4xxCount := none, http404Count := none
    http500Count := none, http5xxCount := none
    http404FailureCount := if schema.countsFailures then some none else none
    p80Ms := none, p95Ms := none }

def Component.counts (c : Component) (schema : Schema) : List (Option ℤ) :=
  [c.requestCount, c.http1xxCount, c.http2xxCount, c.http3xxCount, c.http4xxCount, c.http404Count,
    c.http500Count, c.http5xxCount] ++
    if schema.countsFailures then [c.http404FailureCount.getD none] else []

def Component.latencies (c : Component) : List (Option ℚ) := [c.p80Ms, c.p95Ms]

def Component.validate (c : Component) (schema : Schema) : Except String Unit :=
  if c.collectionState = "UNAVAILABLE" then
    require ((∀ n ∈ c.counts schema, n = none) ∧ ∀ v ∈ c.latencies, v = none)
      "Unavailable collection cannot contain measurements"
  else do
    let count := c.requestCount.getD 0
    require (c.collectionState = "OK") "Unknown collection state"
    require (∀ n ∈ c.counts schema, ∃ v ∈ n, 0 ≤ v ∧ v ≤ 1000000000) "Invalid count"
    require (c.http1xxCount.getD 0 + c.http2xxCount.getD 0 + c.http3xxCount.getD 0 +
      c.http4xxCount.getD 0 + c.http5xxCount.getD 0 = count) "Response classes must partition requests"
    require (c.http404Count.getD 0 ≤ c.http4xxCount.getD 0 ∧
      c.http500Count.getD 0 ≤ c.http5xxCount.getD 0) "Invalid response subsets"
    require (notFoundFailures c ≤ c.http404Count.getD 0 ∧ (c.designated ∨ notFoundFailures c = 0))
      "Failed-request 404s are a subset of a designated component's 404s"
    require (count ≠ 0 ∨ ∀ v ∈ c.latencies, v = none) "Empty windows have no latency quantile"
    require (count = 0 ∨ ∀ v ∈ c.latencies, ∃ ms ∈ v, 0 ≤ ms ∧ ms ≤ 600000) "Invalid latency"
    require (count = 0 ∨ c.p80Ms.getD 0 ≤ c.p95Ms.getD 0) "Quantiles are not ordered"

def validateComponents (schema : Schema) : List String → List Component → Except String Unit
  | _, [] => .ok ()
  | seen, c :: cs => do
    require (c.http404FailureCount.isSome = schema.countsFailures) "Unexpected component fields"
    require (c.key ∈ schema.componentKeys ∧ c.key ∉ seen) "Unknown or duplicate component"
    c.validate schema
    validateComponents schema (c.key :: seen) cs

def validateSnapshot (payload : Snapshot) : Except String Snapshot := do
  let schema ← demand ((schemas payload.schemaVersion).filter (fun _ ↦
    payload.windowSeconds = windowSeconds)) "Unsupported snapshot schema or window"
  require (∀ latest ∈ payload.sourceLatestAt, latest ≤ payload.sampledAt)
    "Source event cannot be later than evaluation time"
  require (payload.components.length = schema.componentKeys.length) "Incomplete components"
  validateComponents schema [] payload.components
  return payload

def validateFreshSnapshot (payload : Snapshot) (receivedAt : Instant) : Except String Snapshot := do
  let snapshot ← validateSnapshot payload
  require (0 ≤ receivedAt - snapshot.sampledAt ∧
    receivedAt - snapshot.sampledAt ≤ windowSeconds * second) "Stale or future snapshot"
  return snapshot

end Validation

section Classification

inductive ComponentState
  | monitorUnavailable
  | stale
  | noTraffic
  | elevatedErrors
  | highLatency
  | normal
deriving DecidableEq, Repr

structure Classification where
  state : ComponentState := .monitorUnavailable
  reasons : List String := []
  http404Percent : Option ℚ := none
  http500Percent : Option ℚ := none
  http5xxPercent : Option ℚ := none
  http404FailurePercent : Option ℚ := none
deriving DecidableEq, Repr

def classifyTraffic (c : Component) (count : ℤ) : Classification :=
  let percent (n : ℤ) : ℚ := 100 * (n : ℚ) / count
  let http404 := percent (c.http404Count.getD 0)
  let http5xx := percent (c.http5xxCount.getD 0)
  let errors :=
    (if 2 < http5xx then ["Elevated server-error responses (5xx above 2%)."] else []) ++
    (if notFoundFailuresSignal c then
      ["Hall-pass requests not found when approved, rejected or cancelled (at least 3, above 2%)."]
      else []) ++
    (if 5 < http404 then ["Elevated not-found responses (404 above 5%)."] else [])
  let slow := 1500 < c.p95Ms.getD 0
  let reasons := errors ++ if slow then ["High latency (p95 above 1,500 ms)."] else []
  { state := if errors ≠ [] then .elevatedErrors else if slow then .highLatency else .normal
    reasons :=
      if reasons = [] then ["Observed requests are within the published thresholds."] else reasons
    http404Percent := some http404
    http500Percent := some (percent (c.http500Count.getD 0))
    http5xxPercent := some http5xx
    http404FailurePercent := if c.designated then some (percent (notFoundFailures c)) else none }

def classifyComponent (c : Component) (sampledAt : Instant) (latest : Option Instant)
    (now : Instant) : Classification :=
  if now < sampledAt ∨ ∃ l ∈ latest, now < l then
    { reasons := ["Monitoring timestamps are ahead of the current time."] }
  else if windowSeconds * second < now - sampledAt ∨ ∃ l ∈ latest, 180 * second < now - l then
    { state := .stale, reasons := ["Recent monitoring evidence is unavailable."] }
  else if latest = none ∨ c.collectionState ≠ "OK" then
    { reasons := ["Monitoring could not collect this measurement."] }
  else if c.requestCount.getD 0 = 0 then
    { state := .noTraffic, reasons := ["No matching requests in this window."] }
  else classifyTraffic c (c.requestCount.getD 0)

end Classification

section Activity

structure Activity where
  sampledAt : Instant
  sourceLatestAt : Option Instant
  component : Component
deriving DecidableEq, Repr

def ComponentState.uninformed (s : ComponentState) : Bool := s = .stale ∨ s = .monitorUnavailable

/-- The snapshot that a retained activity is validated in, beside components that are unavailable. -/
def Activity.historical (v : Activity) (key version : String) (schema : Schema) : Snapshot :=
  { schemaVersion := version, sampledAt := v.sampledAt, windowSeconds := windowSeconds
    sourceLatestAt := v.sourceLatestAt
    components := schema.componentKeys.map fun name ↦
      if name = key then v.component else unavailableComponent name schema }

def Activity.Retained (v : Activity) (key : String) (now : Instant) : Prop :=
  let version := if v.component.http404FailureCount.isSome then schemaVersion else legacySchemaVersion
  ∃ schema ∈ schemas version, key ∈ schema.componentKeys ∧
    validateSnapshot (v.historical key version schema) =
      .ok (v.historical key version schema) ∧
    0 ≤ now - v.sampledAt ∧ now - v.sampledAt ≤ 7 * 86400 * second ∧
    v.component.requestCount.getD 0 ≠ 0 ∧
    (classifyComponent v.component v.sampledAt v.sourceLatestAt v.sampledAt).state.uninformed = false

instance (v : Activity) (key : String) (now : Instant) : Decidable (v.Retained key now) :=
  inferInstanceAs (Decidable (∃ schema ∈ _, _ ∧ _ ∧ _ ∧ _ ∧ _ ∧ _))

def retainedActivity (activity : String → Option Activity) (now : Instant) :
    String → Option Activity :=
  fun key ↦ if key ∈ componentKeys then (activity key).filter (·.Retained key now) else none

end Activity

end TokenHub.Status
