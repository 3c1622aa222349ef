import TokenHub.Attendance.Rows

set_option autoImplicit false

namespace TokenHub.Store

open Rent

inductive EntitlementType
  | hallPass
  | immediateUse
  | delayedUse
  | privilege
  | collectiveGoal
  | insurance
deriving DecidableEq, Repr

/-- One row of `entitlement_events`. The random entitlement id is a fresh number here, and the
random `event_id` any number. -/
structure EntitlementEvent where
  eventId : ℕ
  classId : String
  entitlementId : ℕ
  targetSeatId : ℕ
  actorSeatId : ℕ
  productId : Option String
  entitlementType : EntitlementType
  acquisitionType : AcquisitionType
  eventType : EntitlementEventType
  correlationId : Option String
  policyUuid : Option String
  timestamp : Instant
deriving DecidableEq, Repr

/-- The kinds that a payload names. A redemption request names none. -/
inductive PendingActionKind
  | hallPassRequest
  | immediateUseAcknowledgement
deriving DecidableEq, Repr

/-- One row of `pending_actions`, its payload's facts as columns. -/
structure PendingAction where
  pendingActionId : ℕ
  classId : String
  seatId : ℕ
  entitlementId : ℕ
  correlationId : String
  authoritativeFeat : String
  kind : Option PendingActionKind
  outcome : Option String
  requestedBySeatId : Option ℕ
  destination : Option String
  submittedAt : Instant
deriving DecidableEq, Repr

structure HallPassLog where
  id : ℕ
  requestedBySeatId : ℕ
  approvedBySeatId : ℕ
  correlationId : String
  policyUuid : String
  hallPassId : Option ℕ
  destination : Option String
  classId : String
  timestamp : Instant
deriving DecidableEq, Repr

structure EntitlementTables where
  entitlementEvents : List EntitlementEvent
  pendingActions : List PendingAction
  hallPassLogs : List HallPassLog

def EntitlementEvent.isTerminal (e : EntitlementEvent) : Bool :=
  decide (e.eventType = .consumed ∨ e.eventType = .expired ∨ e.eventType = .revoked)

/-- The order of `order_by(timestamp.asc(), event_id.asc())`. -/
def EntitlementEvent.Sooner (a b : EntitlementEvent) : Prop :=
  a.timestamp < b.timestamp ∨ a.timestamp = b.timestamp ∧ a.eventId ≤ b.eventId

instance : DecidableRel EntitlementEvent.Sooner := fun a b ↦ by
  unfold EntitlementEvent.Sooner; infer_instance

section Reads

variable (T : EntitlementTables) (classId : String)

/-- `hall_pass_use_log`, as a test. -/
def EntitlementTables.isUsedHallPass (entitlementId : ℕ) : Bool :=
  T.hallPassLogs.any (fun l ↦ l.classId = classId ∧ l.hallPassId = some entitlementId)

/-- `get_entitlement_lineage_terminal_event`. A lineage has at most one. -/
def EntitlementTables.terminalEvent (entitlementId : ℕ) : Option EntitlementEvent :=
  T.entitlementEvents.find? (fun e ↦ e.classId = classId ∧ e.entitlementId = entitlementId ∧
    e.isTerminal)

def EntitlementTables.ended (entitlementId : ℕ) : Bool :=
  (T.terminalEvent classId entitlementId).isSome || T.isUsedHallPass classId entitlementId

/-- A row of `_unresolved_pending_actions`. -/
def PendingAction.isUnresolved (p : PendingAction) : Bool :=
  decide (p.outcome = none ∧ p.kind ≠ some .immediateUseAcknowledgement)

/-- Membership in `entitlements_with_pending_action`. -/
def EntitlementTables.hasPendingAction (entitlementId : ℕ) : Bool :=
  T.pendingActions.any (fun p ↦ p.isUnresolved ∧ p.classId = classId ∧
    p.entitlementId = entitlementId)

def EntitlementTables.availableHallPassGrant (seatId : ℕ) : Option EntitlementEvent :=
  ((T.entitlementEvents.filter (fun e ↦ e.targetSeatId = seatId ∧ e.classId = classId ∧
    e.entitlementType = .hallPass ∧ e.eventType = .granted)).insertionSort
      EntitlementEvent.Sooner).find? (fun e ↦ ¬ (T.ended classId e.entitlementId ∨
        T.hasPendingAction classId e.entitlementId))

end Reads

end TokenHub.Store
