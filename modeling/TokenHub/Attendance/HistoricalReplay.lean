import TokenHub.Attendance.FrozenEvidence
import TokenHub.Lib.Segments

set_option autoImplicit false

namespace TokenHub.Attendance

open Rent Lib.Checks Lib.Ordered Lib.Segments
open Ledger (PyValue)
open Payroll (PayrollEventType)

/-- What ends a reconstruction: a reason of `HistoricalAssessmentDenied`, or the temporal
resolver. -/
inductive ReplayRaise
  | invalidInput
  | evidenceLimitExceeded
  | unauthorizedScope
  | tiedPayrollBoundary
  | malformedPayrollEvidence
  | unknownSettlementRule
  | unknownAllocationVersion
  | recordedMembershipMismatch
  | recordedPricingMismatch
  | missingOrAmbiguousSetting
  | conflictingSelection
  | incompleteCanonicalPair
  | paidOutsideWorked
  | topupMembershipUnavailable
  | compensationMembershipUnavailable
  | temporalResolution (message : String)
deriving DecidableEq, Repr

abbrev Segment := Instant × Instant

/-- The ids of the two events that name a closed interval. -/
abbrev PairId := ℕ × ℕ

def PairId.le (a b : PairId) : Prop := a.1 < b.1 ∨ a.1 = b.1 ∧ a.2 ≤ b.2

instance : DecidableRel PairId.le := fun a b ↦ by unfold PairId.le; infer_instance

def AttendanceInterval.pairId (i : AttendanceInterval) : Option PairId :=
  i.closingEventId.map ((i.openingEventId, ·))

structure HistoricalPairWeight where
  openingEventId : ℕ
  closingEventId : ℕ
  closingTimestamp : String
  durationMicroseconds : ℤ
deriving DecidableEq

structure HistoricalPayrollSettingInput where
  classId : String
  policyLocator : String
  effectiveAt : Instant
  createdAt : Instant
  ratePerMinute : String
  legacyRatePerMinute : Option String
deriving DecidableEq

structure HistoricalReconstructedShare where
  policyLocator : String
  ratePerMinute : String
  creditedSeconds : ℤ
  weights : List HistoricalPairWeight
  windowEventId : ℕ
  paidSeconds : Option ℤ
  sourceSegments : List Segment
deriving DecidableEq

/-- A row of `payroll_event`, with its actor and its keys. -/
structure HistoricalEvent extends PayrollEvent where
  actorSeatId : ℕ
  mechanism : String
  correlationId : String

section Weights

variable (isoformat : Instant → String) (intervals : List AttendanceInterval)

/-- The intervals that a segment lies in; of an empty one those of its own extent, if any. -/
def matching (s : Segment) : List AttendanceInterval :=
  let around := intervals.filter fun i ↦ i.openedAt ≤ s.1 ∧ s.2 ≤ i.closedAt
  let exact := around.filter fun i ↦ i.openedAt = s.1 ∧ i.closedAt = s.2
  if s.2 = s.1 ∧ exact ≠ [] then exact else around

def pairOf (s : Segment) : Except ReplayRaise PairId := do
  require (s.1 ≤ s.2) .conflictingSelection
  match matching intervals s with
  | [i] => demand i.pairId .incompleteCanonicalPair
  | _ => .error .incompleteCanonicalPair

def weigh (seen : List (PairId × Segment)) (s : Segment) :
    Except ReplayRaise (List (PairId × Segment)) := do
  let key ← pairOf intervals s
  require (∀ e ∈ seen, e.1 = key → ¬(s.1 < e.2.2 ∧ e.2.1 < s.2)) .conflictingSelection
  return seen ++ [(key, s)]

def segmentsOf (key : PairId) (seen : List (PairId × Segment)) : List Segment :=
  (seen.filter (·.1 = key)).map (·.2)

/-- `pairs[key].closed_at.isoformat()`, of the last interval with the key. -/
def closingText (key : PairId) : String :=
  ((intervals.reverse.find? (·.pairId = some key)).map fun i ↦ isoformat i.closedAt).getD ""

def weights (segments : List Segment) : Except ReplayRaise (List HistoricalPairWeight) := do
  let seen ← segments.foldlM (weigh intervals) []
  return ((seen.map (·.1)).dedup.insertionSort PairId.le).map fun key ↦
    ⟨key.1, key.2, closingText isoformat intervals key, total (segmentsOf key seen)⟩

end Weights

section Segments

def legacySegments (zone : ClassZone) (previous : Option Instant) (stop : Instant) :
    Option Instant → List AttendanceSession → List Segment
  | opened, [] => (opened.map fun o ↦ (o, min stop (dayEnd zone o))).toList
  | opened, row :: rows =>
    if stop < row.timestamp then (opened.map fun o ↦ (o, min stop (dayEnd zone o))).toList
    else if previous.any (row.timestamp < ·) then legacySegments zone previous stop opened rows
    else
      match row.status, opened with
      | .active, _ => legacySegments zone previous stop (some row.timestamp) rows
      | .inactive, some o =>
        (o, min row.timestamp (dayEnd zone o)) :: legacySegments zone previous stop none rows
      | .inactive, none => legacySegments zone previous stop none rows

def workedSegments (intervals : List AttendanceInterval) (previous : Option Instant)
    (stop : Instant) : List Segment :=
  (intervals.filter fun i ↦ i.openedAt < stop ∧ previous.all (· < i.closedAt)).map fun i ↦
    ((previous.map (max i.openedAt ·)).getD i.openedAt, min i.closedAt stop)

def difference (worked paid : List Segment) : Except ReplayRaise (List Segment) :=
  paid.foldlM (fun result p ↦ do
    require (p.1 ≤ p.2 ∧ (worked.filter fun w ↦ w.1 ≤ p.1 ∧ p.2 ≤ w.2).length = 1)
      .paidOutsideWorked
    return result.flatMap (cut p)) worked

def elapsedOf (segments : List Segment) : Except ReplayRaise ℤ :=
  if segments = [] then .ok 0
  else (elapsedDuration segments).mapError .temporalResolution

end Segments

section Shares

def HistoricalPayrollSettingInput.Later (a b : HistoricalPayrollSettingInput) : Prop :=
  b.effectiveAt < a.effectiveAt ∨ a.effectiveAt = b.effectiveAt ∧ b.createdAt ≤ a.createdAt

instance : DecidableRel HistoricalPayrollSettingInput.Later := fun a b ↦ by
  unfold HistoricalPayrollSettingInput.Later; infer_instance

/-- The one setting of the rank of `s`. -/
def onlyOfRank (settings : List HistoricalPayrollSettingInput) (s : HistoricalPayrollSettingInput) :
    Option HistoricalPayrollSettingInput :=
  match settings.filter fun u ↦ u.effectiveAt = s.effectiveAt ∧ u.createdAt = s.createdAt with
  | [u] => some u
  | _ => none

def settingFor (settings : List HistoricalPayrollSettingInput) (instant : Instant) :
    Option HistoricalPayrollSettingInput :=
  let available := settings.filter (·.effectiveAt ≤ instant)
  match firstBy HistoricalPayrollSettingInput.Later available with
  | some latest => onlyOfRank available latest
  | none => settings.head?.bind (onlyOfRank settings)

variable (isoformat : Instant → String) (intervals : List AttendanceInterval)
  (settings : List HistoricalPayrollSettingInput)

def share (instant : Instant) (segments : List Segment) (window : ℕ) (paid : Option ℤ)
    (legacy : Bool) : Except ReplayRaise HistoricalReconstructedShare := do
  let setting ← demand (settingFor settings instant) .missingOrAmbiguousSetting
  let pairWeights ← weights isoformat intervals segments
  let rate ← demand (if legacy then setting.legacyRatePerMinute else some setting.ratePerMinute)
    .missingOrAmbiguousSetting
  let seconds ← elapsedOf segments
  return ⟨setting.policyLocator, rate, seconds, pairWeights, window, paid, segments⟩

end Shares

section Frozen

structure FrozenProgress where
  shares : List HistoricalReconstructedShare
  seen : List PairId
  policies : List String

/-- `type(value) is int and value > 0`. -/
def positiveId (value : PyValue) : Option ℕ :=
  (value.exactInt.filter (0 < ·)).map Int.toNat

def textOf : PyValue → Option String
  | .str s => some s
  | _ => none

def itemsOf : PyValue → Option (List PyValue)
  | .list items => some items
  | _ => none

/-- `type(value) is int and value >= 0`. -/
def natOf (value : PyValue) : Option ℤ := value.exactInt.filter (0 ≤ ·)

variable (isoformat : Instant → String) (intervals : List AttendanceInterval)
  (settings : List HistoricalPayrollSettingInput) (stop : Instant) (window : ℕ)

/-- One source of a frozen share: its interval's key and extent. -/
def frozenSource (seen : List PairId) (source : PyValue) :
    Except ReplayRaise (PairId × Segment) := do
  let opening ← demand (positiveId (getOr "opening_event_id" source)) .recordedMembershipMismatch
  let closing ← demand (positiveId (getOr "closing_event_id" source)) .recordedMembershipMismatch
  require ((natOf (getOr "credited_seconds" source)).isSome = true) .recordedMembershipMismatch
  let key := (opening, closing)
  match intervals.filter (·.pairId = some key) with
  | [i] =>
    require ((∀ k ∈ seen, k ≠ key) ∧ i.closedAt ≤ stop ∧
      equalsDict (i.asEvidence isoformat closing) source = true) .recordedMembershipMismatch
    return (key, i.openedAt, i.closedAt)
  | _ => .error .recordedMembershipMismatch

def frozenSources (seen : List PairId) : List PyValue →
    Except ReplayRaise (List (PairId × Segment))
  | [] => return []
  | source :: sources => do
    let first ← frozenSource isoformat intervals stop seen source
    let rest ← frozenSources (seen ++ [first.1]) sources
    return first :: rest

def frozenShare (p : FrozenProgress) (recorded : PyValue) : Except ReplayRaise FrozenProgress := do
  let sources ← demand (itemsOf (getOr "intervals" recorded)) .recordedMembershipMismatch
  let seconds ← demand (natOf (getOr "seconds" recorded)) .recordedMembershipMismatch
  let policy ← demand (textOf (getOr "policy_uuid" recorded)) .recordedMembershipMismatch
  require (policy ∉ p.policies) .recordedMembershipMismatch
  let named ← frozenSources isoformat intervals stop p.seen sources
  match named.map (·.2) with
  | [] => .error .recordedMembershipMismatch
  | first :: rest =>
    let built ← share isoformat intervals settings first.2 (first :: rest) window none false
    require (built.policyLocator = policy ∧
      textOf (getOr "pay_rate_per_minute" recorded) = some built.ratePerMinute ∧
      built.creditedSeconds = seconds) .recordedMembershipMismatch
    return ⟨p.shares ++ [built], p.seen ++ named.map (·.1), p.policies ++ [policy]⟩

def frozenShares (summary : PyValue) : Except ReplayRaise (List HistoricalReconstructedShare) := do
  let recorded ← demand (itemsOf (getOr "pricing" summary)) .recordedMembershipMismatch
  let p ← recorded.foldlM (frozenShare isoformat intervals settings stop window) ⟨[], [], []⟩
  require (p.shares ≠ []) .recordedMembershipMismatch
  return p.shares

end Frozen

section Closed

variable (isoformat : Instant → String) (intervals : List AttendanceInterval)
  (settings : List HistoricalPayrollSettingInput)

/-- The part of an interval that the rule of closed sessions pays: what the last legacy window
that ended before its close left of it. -/
def closedPart (legacyTimes : List Instant) (i : AttendanceInterval) : Segment :=
  ((legacyTimes.filter (· < i.closedAt)).foldl max i.openedAt, i.closedAt)

def closesWithin (previous : Option Instant) (stop : Instant) (i : AttendanceInterval) : Prop :=
  i.closedAt ≤ stop ∧ ∀ t ∈ previous, t < i.closedAt

instance (previous : Option Instant) (stop : Instant) (i : AttendanceInterval) :
    Decidable (closesWithin previous stop i) := by unfold closesWithin; infer_instance

/-- `groups.setdefault(locator, []).append(segment)`. -/
def addToGroup (locator : String) (s : Segment) :
    List (String × List Segment) → List (String × List Segment)
  | [] => [(locator, [s])]
  | group :: groups =>
    if group.1 = locator then (locator, group.2 ++ [s]) :: groups
    else group :: addToGroup locator s groups

def closedGroups (previous : Option Instant) (stop : Instant) (legacyTimes : List Instant) :
    Except ReplayRaise (List (String × List Segment)) :=
  (intervals.filter fun i ↦ closesWithin previous stop i ∧
      ¬i.closedAt < (closedPart legacyTimes i).1).foldlM (fun groups i ↦ do
    let setting ← demand (settingFor settings i.closedAt) .missingOrAmbiguousSetting
    return addToGroup setting.policyLocator (closedPart legacyTimes i) groups) []

def closedShares (previous : Option Instant) (stop : Instant) (legacyTimes : List Instant)
    (window : ℕ) : Except ReplayRaise (List HistoricalReconstructedShare) := do
  let groups ← closedGroups intervals settings previous stop legacyTimes
  groups.mapM fun group ↦ share isoformat intervals settings
    ((group.2.head?.map (·.2)).getD stop) group.2 window none false

end Closed

section Payrolls

structure HistoricalReconstructedEvent where
  event : HistoricalEvent
  /-- `multiply_first_half_even_28`, else `divide_first_half_even_28`. -/
  multiplyFirst : Bool
  shares : List HistoricalReconstructedShare
  referencedEventIds : List ℕ
  candidateShares : List HistoricalReconstructedShare

/-- The window of a legacy payroll: what it paid, and what was worked in it. -/
structure WindowFacts where
  event : HistoricalEvent
  paid : List Segment
  worked : List Segment

structure ReplayProgress where
  result : List HistoricalReconstructedEvent
  windowFacts : List WindowFacts
  previous : Option Instant
  legacyTimes : List Instant

def recordedPrices (recorded : PyValue) : Except ReplayRaise (List (String × ℤ × String)) := do
  let entries ← demand (itemsOf recorded) .recordedPricingMismatch
  entries.mapM fun v ↦ do
    let seconds ← demand (natOf (getOr "seconds" v)) .recordedPricingMismatch
    let policy ← demand (textOf (getOr "policy_uuid" v)) .recordedPricingMismatch
    let rate ← demand (textOf (getOr "pay_rate_per_minute" v)) .recordedPricingMismatch
    return (policy, seconds, rate)

def paidPrices (shares : List HistoricalReconstructedShare) : List (String × ℤ × String) :=
  (shares.filter (0 < ·.creditedSeconds)).map fun v ↦
    (v.policyLocator, v.creditedSeconds, v.ratePerMinute)

/-- A price list that was recorded without frozen pairs is the replayed one. -/
def checkPricing (summary : PyValue) (shares : List HistoricalReconstructedShare) :
    Except ReplayRaise Unit :=
  match summary.getItem "pricing" with
  | .error _ => .ok ()
  | .ok recorded => do
    let prices ← recordedPrices recorded
    require (prices.Perm (paidPrices shares)) .recordedPricingMismatch

/-- `event.summary_json or {}`, where it is a dict or nothing. -/
def summaryOf (e : HistoricalEvent) : Except ReplayRaise PyValue :=
  match e.summaryJson with
  | .none => .ok (.dict [])
  | .dict fields => .ok (.dict fields)
  | _ => .error .malformedPayrollEvidence

def knownRule (summary : PyValue) : Prop :=
  hashKey (getOr "settlement_rule" summary) = .ok .none ∨ underClosedRule summary = true

instance (summary : PyValue) : Decidable (knownRule summary) := by
  unfold knownRule; infer_instance

/-- `allocation_version` is absent or the integer 1. -/
def knownVersion (summary : PyValue) : Prop :=
  (summary.getItem "allocation_version").toOption.isSome = true → frozen summary = true

instance (summary : PyValue) : Decidable (knownVersion summary) := by
  unfold knownVersion; infer_instance

variable (zone : ClassZone) (isoformat : Instant → String) (rows : List AttendanceSession)
  (intervals : List AttendanceInterval) (settings : List HistoricalPayrollSettingInput)

def unfrozenShares (p : ReplayProgress) (e : HistoricalEvent) (summary : PyValue) :
    Except ReplayRaise (List HistoricalReconstructedShare) := do
  let shares ← if underClosedRule summary then
      closedShares isoformat intervals settings p.previous e.recordedAt p.legacyTimes e.id
    else do
      let only ← share isoformat intervals settings e.recordedAt
        (legacySegments zone p.previous e.recordedAt none rows) e.id none true
      pure [only]
  checkPricing summary shares
  return shares

/-- One turn of the loop over the payrolls, which leaves its boundary whatever it paid. -/
def replayPayroll (p : ReplayProgress) (e : HistoricalEvent) :
    Except ReplayRaise ReplayProgress := do
  let summary ← summaryOf e
  require (knownRule summary) .unknownSettlementRule
  require (knownVersion summary) .unknownAllocationVersion
  if frozen summary = true then
    let shares ← frozenShares isoformat intervals settings e.recordedAt e.id summary
    return { p with
      result := p.result ++ [⟨e, true, shares, [], []⟩], previous := some e.recordedAt }
  else
    let shares ← unfrozenShares zone isoformat rows intervals settings p e summary
    let next := { p with
      result := p.result ++ [⟨e, false, shares, [], []⟩], previous := some e.recordedAt }
    if underClosedRule summary = true then return next
    else return { next with
      windowFacts := p.windowFacts ++ [⟨e, legacySegments zone p.previous e.recordedAt none rows,
        workedSegments intervals p.previous e.recordedAt⟩]
      legacyTimes := p.legacyTimes ++ [e.recordedAt] }

end Payrolls

section TopUps

variable (isoformat : Instant → String) (intervals : List AttendanceInterval)
  (settings : List HistoricalPayrollSettingInput)

/-- What a top-up may pay of one legacy window: the work that the window did not pay. -/
def candidateShare (f : WindowFacts) :
    Except ReplayRaise (Option HistoricalReconstructedShare) := do
  let paidSeconds ← elapsedOf f.paid
  let workedSeconds ← elapsedOf f.worked
  if workedSeconds ≤ paidSeconds then return none
  else
    let _ ← weights isoformat intervals f.paid
    let loss ← difference f.worked f.paid
    let base ← share isoformat intervals settings f.event.recordedAt f.worked f.event.id
      (some paidSeconds) true
    let lossWeights ← weights isoformat intervals loss
    return some { base with weights := lossWeights, sourceSegments := loss }

def candidateShares (facts : List WindowFacts) (recordedAt : Instant) :
    Except ReplayRaise (List HistoricalReconstructedShare) := do
  let found ← (facts.filter (·.event.recordedAt < recordedAt)).mapM
    (candidateShare isoformat intervals settings)
  return found.filterMap id

/-- `corrected_payroll_event_ids`: distinct integers, at least one. -/
def referencedIds (summary : PyValue) : Option (List ℤ) :=
  ((itemsOf (getOr "corrected_payroll_event_ids" summary)).bind fun items ↦
    items.mapM PyValue.exactInt).filter fun ids ↦ ids ≠ [] ∧ ids.Nodup

def topUpKey (classId : String) (targetSeatId : ℕ) : String :=
  "payroll-correction:PROD-PAY-001:" ++ classId ++ ":" ++ toString targetSeatId

def isTopUp (e : HistoricalEvent) (summary : PyValue) : Prop :=
  e.payrollEventType = .manualCredit ∧
    hashKey (getOr "source" summary) = .ok (.str "payroll_correction") ∧
    hashKey (getOr "incident" summary) = .ok (.str "PROD-PAY-001")

instance (e : HistoricalEvent) (summary : PyValue) : Decidable (isTopUp e summary) := by
  unfold isTopUp; infer_instance

def replayTopUp (uuid5 : String → String) (classId : String) (targetSeatId : ℕ)
    (facts : List WindowFacts) (e : HistoricalEvent) (summary : PyValue) :
    Except ReplayRaise HistoricalReconstructedEvent := do
  require (e.idempotencyKey = topUpKey classId targetSeatId ∧
    e.correlationId = uuid5 (topUpKey classId targetSeatId) ∧ e.mechanism.toLower = "system" ∧
    (getOr "approved_by_seat_id" summary).exactInt = some (e.actorSeatId : ℤ))
    .topupMembershipUnavailable
  let references ← demand (referencedIds summary) .topupMembershipUnavailable
  require (∀ i ∈ references, ∃ f ∈ facts, (f.event.id : ℤ) = i ∧ f.event.recordedAt < e.recordedAt)
    .topupMembershipUnavailable
  let candidates ← candidateShares isoformat intervals settings facts e.recordedAt
  let shares ← references.mapM fun i ↦
    demand (candidates.find? fun s ↦ (s.windowEventId : ℤ) = i) .topupMembershipUnavailable
  return ⟨e, false, shares, references.map Int.toNat, candidates⟩

end TopUps

section Graph

structure HistoricalReconstructedReversal where
  originalEventId : ℕ
  event : HistoricalReconstructedEvent

structure HistoricalReconstructedRecovery where
  eventId : ℕ
  originalEventId : ℕ
  correctionIntentLocator : PyValue
  openingEventId : PyValue
  closingEventId : PyValue
  kind : PyValue
  ledgerResultLocator : PyValue
  classId : String
  targetSeatId : ℕ

structure HistoricalReconstructedGraph where
  classId : String
  targetSeatId : ℕ
  sourceIds : List ℕ
  intervals : List AttendanceInterval
  events : List HistoricalReconstructedEvent
  reversals : List HistoricalReconstructedReversal
  recoveries : List HistoricalReconstructedRecovery
  sourceRecords : List (ℕ × String × AttendanceStatus)
  settingInputs : List HistoricalPayrollSettingInput

structure OtherProgress where
  topUps : List HistoricalReconstructedEvent
  reversals : List HistoricalReconstructedReversal
  recoveries : List HistoricalReconstructedRecovery

def hasReceipt (summary : PyValue) : Bool := (summary.getItem "command_receipt").toOption.isSome

def namedEvent (events : List HistoricalEvent) (key : String) (summary : PyValue) :
    Option HistoricalEvent :=
  (getOr key summary).exactInt.bind fun i ↦ events.find? fun e ↦ (e.id : ℤ) = i

variable (isoformat : Instant → String) (uuid5 : String → String)

def replayOther (classId : String) (targetSeatId : ℕ) (intervals : List AttendanceInterval)
    (settings : List HistoricalPayrollSettingInput) (events : List HistoricalEvent)
    (facts : List WindowFacts) (p : OtherProgress) (e : HistoricalEvent) :
    Except ReplayRaise OtherProgress := do
  let summary ← summaryOf e
  if isTopUp e summary then
    let topUp ← replayTopUp isoformat intervals settings uuid5 classId targetSeatId facts e summary
    return { p with topUps := p.topUps ++ [topUp] }
  else if e.payrollEventType = .correction ∨
      e.payrollEventType = .reversal ∧ hasReceipt summary = true then
    let original ← demand (namedEvent events "original_payroll_event_id" summary)
      .compensationMembershipUnavailable
    let recovery : HistoricalReconstructedRecovery :=
      { eventId := e.id, originalEventId := original.id
        correctionIntentLocator := getOr "correction_intent_locator" summary
        openingEventId := getOr "opening_event_id" summary
        closingEventId := getOr "closing_event_id" summary
        kind := (summary.getItem "correction_intent").toOption.getD (.str "EXACT_REVERSAL")
        ledgerResultLocator := getOr "ledger_result_locator" summary
        classId := e.classId, targetSeatId := e.targetSeatId }
    return { p with recoveries := p.recoveries ++ [recovery] }
  else if e.payrollEventType = .reversal then
    let original ← demand (namedEvent events "reversed_payroll_event_id" summary)
      .compensationMembershipUnavailable
    require (original.payrollEventType = .payroll ∨ original.payrollEventType = .manualCredit)
      .compensationMembershipUnavailable
    return { p with reversals := p.reversals ++ [⟨original.id, ⟨e, false, [], [], []⟩⟩] }
  else return p

/-- `_scope` of a caller's context. -/
structure ReplayContext where
  classId : String
  seatId : Option ℕ
  userId : Option ℕ
  actorRole : String

def ReplayContext.mayRead (ctx : ReplayContext) (targetSeatId : ℕ) : Prop :=
  ctx.classId ≠ "" ∧ ctx.seatId.getD 0 ≠ 0 ∧ ctx.userId.getD 0 ≠ 0 ∧ ctx.actorRole = "teacher" ∧
    0 < targetSeatId

instance (ctx : ReplayContext) (targetSeatId : ℕ) : Decidable (ctx.mayRead targetSeatId) := by
  unfold ReplayContext.mayRead; infer_instance

def HistoricalEvent.Sooner (a b : HistoricalEvent) : Prop :=
  a.toPayrollEvent.Sooner b.toPayrollEvent

instance : DecidableRel HistoricalEvent.Sooner := fun a b ↦ by
  unfold HistoricalEvent.Sooner; infer_instance

def HistoricalReconstructedEvent.Sooner (a b : HistoricalReconstructedEvent) : Prop :=
  a.event.Sooner b.event

instance : DecidableRel HistoricalReconstructedEvent.Sooner := fun a b ↦ by
  unfold HistoricalReconstructedEvent.Sooner; infer_instance

def HistoricalPayrollSettingInput.Earlier (a b : HistoricalPayrollSettingInput) : Prop :=
  a.effectiveAt < b.effectiveAt ∨ a.effectiveAt = b.effectiveAt ∧ a.createdAt ≤ b.createdAt

instance : DecidableRel HistoricalPayrollSettingInput.Earlier := fun a b ↦ by
  unfold HistoricalPayrollSettingInput.Earlier; infer_instance

def reconstructHistoricalPayrollSnapshot (zone : ClassZone) (ctx : ReplayContext)
    (targetSeatId : ℕ) (rows : List AttendanceSession) (intervals : List AttendanceInterval)
    (events : List HistoricalEvent) (settingInputs : List HistoricalPayrollSettingInput) :
    Except ReplayRaise HistoricalReconstructedGraph := do
  require (ctx.mayRead targetSeatId) .unauthorizedScope
  require ((∀ r ∈ rows, r.classId = ctx.classId ∧ r.targetSeatId = targetSeatId) ∧
    ∀ e ∈ events, e.classId = ctx.classId ∧ e.targetSeatId = targetSeatId) .unauthorizedScope
  let settings := settingInputs.insertionSort HistoricalPayrollSettingInput.Earlier
  require (∀ s ∈ settings, s.classId = ctx.classId) .unauthorizedScope
  let ordered := events.insertionSort HistoricalEvent.Sooner
  let payrolls := ordered.filter (·.payrollEventType = .payroll)
  require (payrolls.IsChain fun (a b : HistoricalEvent) ↦ a.recordedAt ≠ b.recordedAt)
    .tiedPayrollBoundary
  let replayed ← payrolls.foldlM (replayPayroll zone isoformat rows intervals settings)
    ⟨[], [], none, []⟩
  let others ← ordered.foldlM (replayOther isoformat uuid5 ctx.classId targetSeatId intervals
    settings ordered replayed.windowFacts) ⟨[], [], []⟩
  return {
    classId := ctx.classId
    targetSeatId := targetSeatId
    sourceIds := rows.map (·.id)
    intervals := intervals
    events := (replayed.result ++ others.topUps).insertionSort HistoricalReconstructedEvent.Sooner
    reversals := others.reversals
    recoveries := others.recoveries
    sourceRecords := rows.map fun r ↦ (r.id, isoformat r.timestamp, r.status)
    settingInputs := settings }

def reconstructHistoricalPayrollGraph (zone : ClassZone) (ctx : ReplayContext) (targetSeatId : ℕ)
    (A : AttendanceTables) (payrollEvents : List HistoricalEvent)
    (settingInputs : List HistoricalPayrollSettingInput) (sourceLimit eventLimit : ℕ)
    (asOf : Instant) : Except ReplayRaise HistoricalReconstructedGraph := do
  require (ctx.mayRead targetSeatId) .unauthorizedScope
  require (1 ≤ eventLimit ∧ eventLimit ≤ 1000 ∧ settingInputs.length ≤ 500) .invalidInput
  require (∀ s ∈ settingInputs, s.classId = ctx.classId) .unauthorizedScope
  require (1 ≤ sourceLimit ∧ sourceLimit ≤ 2000) .invalidInput
  let rows := A.seatRows targetSeatId ctx.classId
  require (rows.length ≤ sourceLimit) .evidenceLimitExceeded
  let events := (payrollEvents.filter fun e ↦
    e.classId = ctx.classId ∧ e.targetSeatId = targetSeatId).insertionSort HistoricalEvent.Sooner
  require (events.length ≤ eventLimit) .evidenceLimitExceeded
  reconstructHistoricalPayrollSnapshot isoformat uuid5 zone ctx targetSeatId rows
    (listAttendanceIntervals zone rows asOf) events settingInputs

/-- `reconstructed_pair_events`: the events whose shares weigh a pair of the graph. -/
def reconstructedPairEvents (graph : HistoricalReconstructedGraph) (ctx : ReplayContext)
    (targetSeatId : ℕ) (key : PairId) : Except ReplayRaise (List ℕ) := do
  require (graph.classId = ctx.classId ∧ graph.targetSeatId = targetSeatId) .unauthorizedScope
  require (∃ i ∈ graph.intervals, i.pairId = some key) .incompleteCanonicalPair
  return (graph.events.filter fun e ↦ e.shares.any fun s ↦ s.weights.any fun w ↦
    (w.openingEventId, w.closingEventId) = key).map (·.event.id)

end Graph

end TokenHub.Attendance
