import TokenHub.Attendance.Pairing
import TokenHub.Ledger.PayrollAllocation
import TokenHub.Payroll.Settings

set_option autoImplicit false

namespace TokenHub.Attendance

open Rent Lib.Checks Lib.Ordered
open Ledger (PyValue AllocationRaise)
open Payroll (PayrollEventType)

section Values

/-- What a value that can be hashed is compared by: `True`, `1` and `1.0` are one number. -/
inductive HashKey
  | none
  | number (q : ℚ)
  | str (s : String)
deriving DecidableEq

/-- `hash(value)`: lists and dicts have none. -/
def hashKey : PyValue → Except AllocationRaise HashKey
  | .none => .ok .none
  | .bool b => .ok (.number (if b then 1 else 0))
  | .int n => .ok (.number n)
  | .number (.finite negative coefficient exponent) =>
    .ok (.number ((if negative then -1 else 1) * (coefficient : ℚ) * 10 ^ exponent))
  | .number _ | .list _ | .dict _ => .error .typeError
  | .str s => .ok (.str s)

/-- `value == n`. -/
def equalsNumber (value : PyValue) (q : ℚ) : Bool :=
  match hashKey value with
  | .ok (.number q') => q' = q
  | _ => false

def sumNumbers : List PyValue → Except AllocationRaise ℚ
  | [] => return 0
  | value :: values => do
    let key ← hashKey value
    let q ← demand (match key with | .number q => some q | _ => none) .typeError
    let rest ← sumNumbers values
    return q + rest

/-- `value == fields`, for a dict of values that can be hashed. -/
def equalsDict (fields : List (String × PyValue)) : PyValue → Bool
  | .dict fields' => fields'.length = fields.length ∧ ∀ field ∈ fields,
      ((fields'.find? (·.1 = field.1)).map fun f ↦ hashKey f.2) = some (hashKey field.2)
  | _ => false

def asDict : PyValue → PyValue
  | .dict fields => .dict fields
  | _ => .dict []

def getOr (key : String) (value : PyValue) : PyValue :=
  match value.getItem key with
  | .ok v => v
  | .error _ => .none

end Values

section Pairs

/-- The key `(opening_event_id, closing_event_id)`. -/
abbrev PairKey := HashKey × HashKey

def AttendanceInterval.pairKey (i : AttendanceInterval) : Option PairKey :=
  i.closingEventId.map fun closing ↦ (.number i.openingEventId, .number closing)

variable (isoformat : Instant → String)

def AttendanceInterval.asEvidence (i : AttendanceInterval) (closing : ℕ) :
    List (String × PyValue) :=
  [("opening_event_id", .int i.openingEventId), ("closing_event_id", .int closing),
    ("opening_timestamp", .str (isoformat i.openedAt)),
    ("closing_timestamp", .str (isoformat i.closedAt)),
    ("credited_seconds", .int i.creditedSeconds)]

def closedIntervals (intervals : List AttendanceInterval) : List AttendanceInterval :=
  intervals.filter (·.closingEventId.isSome)

def evidenceIs (pairs : List AttendanceInterval) (key : PairKey) (source : PyValue) : Bool :=
  (pairs.find? (·.pairKey = some key)).any fun i ↦
    i.closingEventId.any fun closing ↦ equalsDict (i.asEvidence isoformat closing) source

def sourceKey (source : PyValue) : Except AllocationRaise PairKey := do
  let opening ← source.getItem "opening_event_id"
  let closing ← source.getItem "closing_event_id"
  let openingKey ← hashKey opening
  let closingKey ← hashKey closing
  return (openingKey, closingKey)

/-- `sum(i["credited_seconds"] for i in sources)`. -/
def creditedTotal (sources : List PyValue) : Except AllocationRaise ℚ := do
  let seconds ← sources.mapM (·.getItem "credited_seconds")
  sumNumbers seconds

end Pairs

section Events

structure PayrollEvent where
  id : ℕ
  classId : String
  targetSeatId : ℕ
  payrollEventType : PayrollEventType
  idempotencyKey : String
  recordedAt : Instant
  summaryJson : PyValue

def closedSessionSettlementRule : String := "closed_sessions"

def frozen (summary : PyValue) : Bool := (getOr "allocation_version" summary).exactInt = some 1

def underClosedRule (summary : PyValue) : Bool :=
  hashKey (getOr "settlement_rule" summary) = .ok (.str closedSessionSettlementRule)

/-- The order of `order_by(recorded_at.asc(), id.asc())`. -/
def PayrollEvent.Sooner (a b : PayrollEvent) : Prop :=
  a.recordedAt < b.recordedAt ∨ a.recordedAt = b.recordedAt ∧ a.id ≤ b.id

instance : DecidableRel PayrollEvent.Sooner := fun a b ↦ by
  unfold PayrollEvent.Sooner; infer_instance

def seatPayrolls (events : List PayrollEvent) (classId : String) (seatId : ℕ) :
    List PayrollEvent :=
  events.filter fun e ↦ e.classId = classId ∧ e.targetSeatId = seatId ∧
    e.payrollEventType = .payroll

end Events

section Strict

variable (isoformat : Instant → String) (pairs : List AttendanceInterval)

/-- The turn of `calculate_seat_payroll_intervals` for one source. -/
def settleSource (settled : List PairKey) (source : PyValue) :
    Except AllocationRaise (List PairKey) := do
  let key ← sourceKey source
  require (key ∉ settled ∧ evidenceIs isoformat pairs key source = true) .valueError
  return settled ++ [key]

def settleShare (settled : List PairKey) (share : PyValue) :
    Except AllocationRaise (List PairKey) := do
  let sourcesValue ← share.getItem "intervals"
  let sources ← demand (match sourcesValue with | .list items => some items | _ => none) .valueError
  require (sources ≠ []) .valueError
  let total ← creditedTotal sources
  let seconds ← share.getItem "seconds"
  require (equalsNumber seconds total = true) .valueError
  sources.foldlM (settleSource isoformat pairs) settled

def settleFrozen (settled : List PairKey) (summary : PyValue) :
    Except AllocationRaise (List PairKey) := do
  let pricing ← summary.getItem "pricing"
  let shares ← demand (match pricing with | .list items => some items | _ => none) .valueError
  require (shares ≠ []) .valueError
  shares.foldlM (settleShare isoformat pairs) settled

/-- For one event of any kind: what is not frozen settles no pair. -/
def settlePayroll (settled : List PairKey) (e : PayrollEvent) :
    Except AllocationRaise (List PairKey) :=
  match e.summaryJson with
  | .dict _ => if frozen e.summaryJson then settleFrozen isoformat pairs settled e.summaryJson
    else .ok settled
  | _ => .error .valueError

structure SeatPayrollIntervals where
  payable : List AttendanceInterval
  inProgress : List (Instant × Instant)
  unprovable : List AttendanceInterval

/-- An instant of a legacy settlement lies within the work. -/
def straddles (legacyTimes : List Instant) (i : AttendanceInterval) : Prop :=
  ∃ t ∈ legacyTimes, i.openedAt < t ∧ t < i.closedAt

instance (legacyTimes : List Instant) (i : AttendanceInterval) :
    Decidable (straddles legacyTimes i) := by unfold straddles; infer_instance

def calculateSeatPayrollIntervals (identified : List AttendanceInterval)
    (payrolls : List PayrollEvent) (invalidated : List (ℕ × ℕ)) (asOf : Instant) :
    SeatPayrollIntervals :=
  let closed := closedIntervals identified
  let events := payrolls.filter (·.recordedAt ≤ asOf)
  let historical := events.filter (!frozen ·.summaryJson)
  let legacyTimes := (historical.filter (!underClosedRule ·.summaryJson)).map (·.recordedAt)
  match events.foldlM (settlePayroll isoformat closed) [] with
  | .error _ => ⟨[], [], identified⟩
  | .ok settled =>
    let open' := closed.filter fun i ↦ i.pairKey ∉ settled.map some ∧
      (∀ closing ∈ i.closingEventId, (i.openingEventId, closing) ∉ invalidated) ∧
      ∀ e ∈ historical, e.recordedAt < i.closedAt
    let progress := (identified.filter (·.closingEventId.isNone)).getLast?.toList
    { payable := open'.filter fun i ↦ ¬ straddles legacyTimes i ∧ i.openedAt < i.closedAt
      inProgress := (progress.filter fun i ↦ ¬ straddles legacyTimes i ∧
        i.openedAt < i.closedAt).map (·.span)
      unprovable := open'.filter (straddles legacyTimes) ++ progress.filter (straddles legacyTimes) }

end Strict

section Lenient

variable (isoformat : Instant → String) (pairs : List AttendanceInterval)

structure Noted where
  valid : Bool
  mentioned : List PairKey

/-- Steps until one raises; what was read until then stays. -/
def foldUntil {σ α : Type} (f : σ → α → σ × Bool) : σ → List α → σ × Bool
  | s, [] => (s, false)
  | s, a :: as =>
    match f s a with
    | (s', true) => (s', true)
    | (s', false) => foldUntil f s' as

def noteSource (noted : Noted) (source : PyValue) : Noted × Bool :=
  match sourceKey source with
  | .error _ => (noted, true)
  | .ok key => (⟨noted.valid && evidenceIs isoformat pairs key source && key ∉ noted.mentioned,
      noted.mentioned ++ [key]⟩, false)

def shareSources (share : PyValue) : Except AllocationRaise (List PyValue × Bool) := do
  let sourcesValue ← share.getItem "intervals"
  let sources ← sourcesValue.iterate
  let total ← creditedTotal sources
  let seconds ← share.getItem "seconds"
  return (sources, equalsNumber seconds total)

def noteShare (noted : Noted) (share : PyValue) : Noted × Bool :=
  match shareSources share with
  | .error _ => (noted, true)
  | .ok (sources, agrees) =>
    foldUntil (noteSource isoformat pairs) ⟨noted.valid && agrees, noted.mentioned⟩ sources

/-- `valid` and `mentioned` of `payroll_interval_memberships`, before duplicates are looked for. -/
def notePricing (pricing : PyValue) : Noted :=
  match pricing.iterate with
  | .error _ => ⟨false, []⟩
  | .ok shares =>
    let (noted, raised) := foldUntil (noteShare isoformat pairs) ⟨true, []⟩ shares
    ⟨noted.valid && !raised && noted.mentioned ≠ [], noted.mentioned⟩

/-- `summary.get("pricing", [])`. -/
def pricingOf (summary : PyValue) : PyValue :=
  match summary.getItem "pricing" with
  | .ok pricing => pricing
  | .error _ => .list []

inductive SettlementStatus
  | unpaid
  | recorded
  | historicalUnavailable
  | provenanceUnavailable
deriving DecidableEq, Repr

/-- The entry of a closed interval in the result of `payroll_interval_memberships`. -/
structure Membership where
  interval : AttendanceInterval
  status : SettlementStatus
  event : Option PayrollEvent
  requiresReconstruction : Bool

/-- What an event without frozen intervals may have paid. -/
def potentiallySelected (e : PayrollEvent) (i : AttendanceInterval) : Bool :=
  if underClosedRule (asDict e.summaryJson) then ¬ e.recordedAt < i.closedAt
  else i.openedAt < e.recordedAt

def Membership.isIn (m : Membership) (mentioned : List PairKey) : Bool :=
  m.interval.pairKey.any (· ∈ mentioned)

/-- A frozen event is valid by itself, and none of its pairs is recorded already. -/
def admitted (result : List Membership) (noted : Noted) : Bool :=
  noted.valid && result.all fun m ↦ !(m.status = .recorded && m.isIn noted.mentioned)

/-- The turn of `payroll_interval_memberships` for one event. -/
def memberPayroll (result : List Membership) (e : PayrollEvent) : List Membership :=
  let summary := asDict e.summaryJson
  if frozen summary then
    let noted := notePricing isoformat pairs (pricingOf summary)
    if admitted result noted then
      result.map fun m ↦
        if m.isIn noted.mentioned then { m with status := .recorded, event := some e } else m
    else
      result.map fun m ↦
        if m.isIn noted.mentioned ∨ ¬ e.recordedAt < m.interval.openedAt then
          { m with status := .provenanceUnavailable, event := none }
        else m
  else
    result.map fun m ↦
      if potentiallySelected e m.interval then
        ⟨m.interval, .historicalUnavailable, none, true⟩
      else m

def payrollIntervalMemberships (intervals : List AttendanceInterval)
    (payrolls : List PayrollEvent) : List Membership :=
  let pairs := closedIntervals intervals
  (payrolls.insertionSort PayrollEvent.Sooner).foldl (memberPayroll isoformat pairs)
    (pairs.map fun i ↦ ⟨i, .unpaid, none, false⟩)

end Lenient

end TokenHub.Attendance
