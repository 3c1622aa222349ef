import Mathlib.Logic.Function.Basic
import TokenHub.Lib.Runs
import TokenHub.Status.Measurements

set_option autoImplicit false

namespace TokenHub.Status

open Lib.Checks Lib.Runs
open Rent (Instant)

section Days

structure Counters where
  sampled : ℕ := 0
  measured : ℕ := 0
  normal : ℕ := 0
  elevatedErrors : ℕ := 0
  highLatency : ℕ := 0
  other : ℕ := 0
deriving DecidableEq, Repr

def ComponentState.eligible (s : ComponentState) : Bool :=
  s = .normal ∨ s = .elevatedErrors ∨ s = .highLatency

def Counters.count (c : Counters) (s : ComponentState) : Counters where
  sampled := c.sampled + 1
  measured := c.measured + s.eligible.toNat
  normal := c.normal + (decide (s = .normal)).toNat
  elevatedErrors := c.elevatedErrors + (decide (s = .elevatedErrors)).toNat
  highLatency := c.highLatency + (decide (s = .highLatency)).toNat
  other := c.other + (!s.eligible).toNat

abbrev DayRecord := String → Option Counters

def DayRecord.countComponent (day : DayRecord) (p : String × ComponentState) : DayRecord :=
  Function.update day p.1 (some (((day p.1).getD {}).count p.2))

def Snapshot.states (s : Snapshot) : List (String × ComponentState) :=
  s.components.map fun c ↦
    (c.key, (classifyComponent c s.sampledAt s.sourceLatestAt s.sampledAt).state)

def DayRecord.countSnapshot (day : DayRecord) (s : Snapshot) : DayRecord :=
  s.states.foldl DayRecord.countComponent day

end Days

section Store

def minuteOf (t : Instant) : ℤ := t / (60 * second)

def minuteStart (t : Instant) : Instant := minuteOf t * (60 * second)

def dateOf (t : Instant) : ℤ := t / (86400 * second)

/-- One delivery: a snapshot, or the diagnostic of a failed collection. -/
structure Attempt where
  snapshot : Option Snapshot
  receivedAt : Instant
  diagnostic : Option String
deriving DecidableEq, Repr

structure CurrentAttempt extends Attempt where
  lastActivity : String → Option Activity

/-- A document of `telemetry_snapshots`. -/
structure SourceMinute where
  snapshot : Snapshot
  receivedAt : Instant
deriving DecidableEq, Repr

structure TelemetryStore where
  current : Option CurrentAttempt
  sources : List SourceMinute
  days : ℤ → Option DayRecord
  attempts : List Attempt

def TelemetryStore.empty : TelemetryStore := ⟨none, [], fun _ ↦ none, []⟩

variable (S : TelemetryStore) (d : Attempt)

/-- Whether a snapshot's minute has its document. -/
def TelemetryStore.Recorded (s : Snapshot) : Prop :=
  ∃ m ∈ S.sources, minuteOf m.snapshot.sampledAt = minuteOf s.sampledAt

instance (s : Snapshot) : Decidable (S.Recorded s) :=
  inferInstanceAs (Decidable (∃ m ∈ S.sources, _))

def TelemetryStore.record : TelemetryStore :=
  match d.snapshot with
  | some s =>
    if S.Recorded s then S
    else
      let day := ((S.days (dateOf s.sampledAt)).getD fun _ ↦ none).countSnapshot s
      { S with
        sources := S.sources ++ [⟨s, d.receivedAt⟩]
        days := Function.update S.days (dateOf s.sampledAt) (some day) }
  | none => { S with attempts := S.attempts ++ [d] }

def CurrentAttempt.Precedes (previous : CurrentAttempt) (s : Snapshot) : Prop :=
  match previous.snapshot with
  | some p => p.sampledAt < s.sampledAt
  | none => minuteStart previous.receivedAt ≤ s.sampledAt

instance (previous : CurrentAttempt) (s : Snapshot) : Decidable (previous.Precedes s) := by
  unfold CurrentAttempt.Precedes
  cases previous.snapshot <;> infer_instance

def TelemetryStore.Advances : Prop :=
  (∀ previous ∈ S.current, previous.receivedAt < d.receivedAt) ∧
    ∀ s ∈ d.snapshot, ¬ S.Recorded s ∧ ∀ previous ∈ S.current, previous.Precedes s

instance : Decidable (S.Advances d) := inferInstanceAs (Decidable (_ ∧ _))

def activityOf (s : Snapshot) (now : Instant) (activity : String → Option Activity)
    (c : Component) : String → Option Activity :=
  if c.requestCount.getD 0 ≠ 0 ∧
      (classifyComponent c s.sampledAt s.sourceLatestAt now).state.uninformed = false then
    Function.update activity c.key (some ⟨s.sampledAt, s.sourceLatestAt, c⟩)
  else activity

def TelemetryStore.activityAfter : String → Option Activity :=
  let retained := retainedActivity (S.current.elim (fun _ ↦ none) (·.lastActivity)) d.receivedAt
  match d.snapshot with
  | some s => s.components.foldl (activityOf s d.receivedAt) retained
  | none => retained

/-- What `append_snapshot` checks before it writes. -/
def Attempt.check : Except String Unit :=
  match d.snapshot with
  | some s => do
    require (d.diagnostic = none) "Source snapshots cannot carry transport failure."
    let _ ← validateFreshSnapshot s d.receivedAt
  | none => require (∃ text ∈ d.diagnostic, text ∈ diagnostics)
      "A failed collection requires a closed diagnostic."

def appendSnapshot : Except String TelemetryStore := do
  d.check
  let S₁ := S.record d
  if S.Advances d then
    return { S₁ with current := some ⟨d, S.activityAfter d⟩ }
  else return S₁

def telemetryStep : TelemetryStore :=
  match appendSnapshot S d with
  | .ok S' => S'
  | .error _ => S

end Store

section Laws

variable (S : TelemetryStore) (d : Attempt)

def Delivers (ds : List Attempt) (s : Snapshot) : Prop :=
  ∃ d ∈ ds, d.check = .ok () ∧ d.snapshot = some s

def OnePerMinute (ds : List Attempt) : Prop :=
  ∀ s s', Delivers ds s → Delivers ds s' → minuteOf s.sampledAt = minuteOf s'.sampledAt → s = s'

/-- A day's record of some snapshots: each of them counted once. -/
def dayOf (snapshots : List Snapshot) (date : ℤ) : Option DayRecord :=
  (snapshots.filter (fun s ↦ dateOf s.sampledAt = date)).foldl
    (fun day s ↦ some ((day.getD fun _ ↦ none).countSnapshot s)) none

structure CountedOnce (ds : List Attempt) : Prop where
  minutes : (S.sources.map (minuteOf ·.snapshot.sampledAt)).Nodup
  delivered : ∀ s, s ∈ S.sources.map (·.snapshot) ↔ Delivers ds s
  days : ∀ date, S.days date = dayOf (S.sources.map (·.snapshot)) date

structure Counters.Partition (c : Counters) : Prop where
  sampled : c.sampled = c.measured + c.other
  measured : c.measured = c.normal + c.elevatedErrors + c.highLatency

/-- The current attempt stays or is received later. -/
def NeverRewinds : Prop :=
  ∀ cur ∈ S.current, ∃ cur' ∈ (telemetryStep S d).current,
    cur' = cur ∨ cur.receivedAt < cur'.receivedAt

def newlyCurrent : Option Snapshot :=
  if (telemetryStep S d).current.map (·.receivedAt) = S.current.map (·.receivedAt) then none
  else (telemetryStep S d).current.bind (·.snapshot)

def becameCurrent : TelemetryStore → List Attempt → List Snapshot
  | _, [] => []
  | S, d :: ds => (newlyCurrent S d).toList ++ becameCurrent (telemetryStep S d) ds

def TelemetryStore.activity (key : String) : Option Activity :=
  S.current.bind (·.lastActivity key)

/-- A retained activity gives way to a newer one only, or is over seven days old. -/
def KeepsActivity : Prop :=
  ∀ key, ∀ v ∈ S.activity key,
    (∃ v' ∈ (telemetryStep S d).activity key, v' = v ∨ v.sampledAt < v'.sampledAt) ∨
      ∃ cur ∈ (telemetryStep S d).current, 7 * 86400 * second < cur.receivedAt - v.sampledAt

end Laws

end TokenHub.Status
