import Mathlib.Data.List.Sort
import TokenHub.Rent.Calendar

set_option autoImplicit false

namespace TokenHub.Rent

open Ledger Lib.Checks

section Queries

variable (S : RentState)

def getAssessmentForCorrelation (correlationId : String) : Option ObligationAssessment :=
  S.assessmentEvents.find? (fun e ↦ e.correlationId = correlationId ∧ e.eventType = .assessment)

def assessedBefore (a b : ObligationAssessment) : Prop :=
  a.timestamp < b.timestamp ∨ (a.timestamp = b.timestamp ∧ a.id ≤ b.id)

instance : DecidableRel assessedBefore := fun _ _ ↦ by unfold assessedBefore; infer_instance

def getObligationsArisingFrom (sourceCorrelationId : String) : List ObligationAssessment :=
  if sourceCorrelationId = "" then []
  else (S.assessmentEvents.filter (fun e ↦
    e.sourceCorrelationId = some sourceCorrelationId ∧ e.eventType = .assessment)).insertionSort
      assessedBefore

def getWithdrawalEvent (correlationId : String) : Option ObligationAssessment :=
  S.assessmentEvents.find? (fun e ↦ e.correlationId = correlationId ∧ e.eventType = .withdrawn)

/-- `get_satisfaction_events`. Its readers add up or look for any, so the order does not matter. -/
def getSatisfactionEvents (correlationId : String) : List ObligationAssessment :=
  S.assessmentEvents.filter (fun e ↦ e.correlationId = correlationId ∧
    (e.eventType = .payment ∨ e.eventType = .waived))

def rowMagnitude (L : LedgerState) (transactionId : Option ℕ) : ℤ :=
  match transactionId with
  | none => 0
  | some i => ((L.transactions.find? (·.id = i)).map (fun t ↦ |t.amountCents|)).getD 0

def paymentEventMagnitude (e : ObligationAssessment) : ℤ :=
  if e.eventType = .payment then rowMagnitude S.ledger e.ledgerTransactionId else 0

def getPaidMagnitude (correlationId : String) : ℤ :=
  ((getSatisfactionEvents S correlationId).map (paymentEventMagnitude S)).sum

def getPaidMagnitudeThroughEvent (correlationId : String) (boundary : ObligationAssessment) : ℤ :=
  (((getSatisfactionEvents S correlationId).filter (assessedBefore · boundary)).map
    (paymentEventMagnitude S)).sum

def getPaymentEventByLedger (transactionId : ℕ) : Option ObligationAssessment :=
  S.assessmentEvents.find? (fun e ↦
    e.ledgerTransactionId = some transactionId ∧ e.eventType = .payment)

/-- The `rent_settings` row of a policy version. -/
def rentPolicy (policyUuid : Option String) : Option RentSettings :=
  match policyUuid with
  | none => none
  | some p => if p = "" then none else S.rentSettings.find? (·.policyUuid = p)

/-- `resolve_assessment_amount`, in cents; zero where no policy row resolves. -/
def resolveAssessmentAmount (a : ObligationAssessment) : ℤ :=
  match a.obligationType with
  | .rent => ((rentPolicy S a.policyUuid).bind (·.rentAmount)).getD 0
  | .lateFee => ((rentPolicy S a.policyUuid).bind (·.latePenaltyAmount)).getD 0
  | .insurancePremium =>
    match a.policyUuid with
    | none => 0
    | some p => if p = "" then 0 else (S.premiums p a.classId).getD 0
  | .other _ => 0

def billCycle (billCycleId : Option ℕ) : Option BillCycle :=
  billCycleId.bind (fun i ↦ S.billCycles.find? (·.id = i))

def resolveAssessmentDueAt (a : ObligationAssessment) : Instant :=
  ((billCycle S a.billCycleId).map (·.cycleBoundaryAt)).getD a.timestamp

end Queries

inductive ObligationStatusCode
  | outstanding
  | satisfied
  | withdrawn
deriving DecidableEq, Repr

structure ObligationState where
  correlationId : String
  classId : String
  seatId : ℕ
  obligationType : ObligationType
  assessedAmount : ℤ
  satisfiedAmount : ℤ
  remainingAmount : ℤ
  isWaived : Bool
  isWithdrawn : Bool
  status : ObligationStatusCode
  dueAt : Instant
deriving DecidableEq, Repr

def getObligationState (S : RentState) (correlationId : String) : Option ObligationState :=
  (getAssessmentForCorrelation S correlationId).map fun a ↦
    let satisfied := getPaidMagnitude S correlationId
    let isWaived := (getSatisfactionEvents S correlationId).any (·.eventType = .waived)
    let assessed := resolveAssessmentAmount S a
    let isWithdrawn := (getWithdrawalEvent S correlationId).isSome
    let status : ObligationStatusCode :=
      if isWithdrawn then .withdrawn
      else if isWaived ∨ assessed ≤ satisfied then .satisfied
      else .outstanding
    { correlationId := correlationId, classId := a.classId, seatId := a.seatId,
      obligationType := a.obligationType, assessedAmount := assessed,
      satisfiedAmount := satisfied,
      remainingAmount := if status = .outstanding then assessed - satisfied else 0,
      isWaived := isWaived, isWithdrawn := isWithdrawn, status := status,
      dueAt := resolveAssessmentDueAt S a }

section Commands

def addEvent (S : RentState) (e : ObligationAssessment) : RentState :=
  { S with assessmentEvents := S.assessmentEvents ++ [e] }

structure AssessmentRequest where
  seatId : ℕ
  classId : String
  internalRef : String
  correlationId : String
  obligationType : ObligationType
  policyUuid : Option String
  billCycleId : Option ℕ
  sourceCorrelationId : Option String := none

def checkIdempotencyAssessment (S : RentState) (internalRef correlationId : String) : Bool :=
  S.assessmentEvents.any (fun e ↦
    e.internalRef = internalRef ∧ e.correlationId = correlationId ∧ e.eventType = .assessment)

/-- `assess_obligation`. The flag tells whether the assessment is new. -/
def assessObligation (S : RentState) (now : Instant) (q : AssessmentRequest) :
    Except Raise (Bool × RentState) := do
  require (q.seatId ≠ 0 ∧ q.classId ≠ "") (.valueError "seat_id and class_id are required")
  require (q.internalRef ≠ "" ∧ q.correlationId ≠ "")
    (.valueError "internal_ref and correlation_id are required")
  require (q.obligationType ≠ .other "") (.valueError "obligation_type is required")
  if checkIdempotencyAssessment S q.internalRef q.correlationId then return (false, S)
  else return (true, addEvent S
    { id := S.assessmentEvents.length + 1, seatId := q.seatId, classId := q.classId,
      internalRef := q.internalRef, correlationId := q.correlationId,
      sourceCorrelationId := q.sourceCorrelationId, eventType := .assessment,
      obligationType := q.obligationType, policyUuid := q.policyUuid, timestamp := now,
      billCycleId := q.billCycleId })

inductive SatisfactionMethod
  | payment
  | waived
deriving DecidableEq, Repr

structure SatisfyObligationRequest where
  correlationId : String
  classId : String
  seatId : ℕ
  method : SatisfactionMethod
  ledgerTransactionId : Option ℕ := none

/-- The satisfaction that a replay of the request meets. A payment is known by its Ledger row, a
waiver by its correlation. -/
def existingSatisfaction (S : RentState) (q : SatisfyObligationRequest) :
    Option ObligationAssessment :=
  match q.method with
  | .payment => q.ledgerTransactionId.bind (getPaymentEventByLedger S)
  | .waived => S.assessmentEvents.find? (fun e ↦
      e.correlationId = q.correlationId ∧ e.eventType = .waived)

def satisfyObligation (S : RentState) (now : Instant) (q : SatisfyObligationRequest) :
    Except Raise (ObligationAssessment × RentState) := do
  let a ← demand (getAssessmentForCorrelation S q.correlationId)
    (.valueError ("Assessment not found for correlation " ++ q.correlationId))
  require (a.classId = q.classId ∧ a.seatId = q.seatId)
    (.valueError "Assessment scope mismatch")
  require (getWithdrawalEvent S q.correlationId = none)
    (.valueError ("Assessment " ++ q.correlationId ++ " was withdrawn and cannot be satisfied"))
  require (q.method = .waived → a.obligationType = .rent)
    (.valueError "WAIVED is only lawful for RENT")
  require (q.method = .payment → q.ledgerTransactionId.getD 0 ≠ 0)
    (.valueError "PAYMENT method requires ledger_transaction_id")
  match existingSatisfaction S q with
  | some e => return (e, S)
  | none =>
    let e : ObligationAssessment :=
      { id := S.assessmentEvents.length + 1, seatId := q.seatId, classId := q.classId,
        internalRef := a.internalRef, correlationId := q.correlationId,
        eventType := if q.method = .payment then .payment else .waived,
        obligationType := a.obligationType, timestamp := now, billCycleId := a.billCycleId,
        ledgerTransactionId := if q.method = .payment then q.ledgerTransactionId else none }
    return (e, addEvent S e)

structure WithdrawAssessmentRequest where
  classId : String
  correlationId : String
  referenceTimeUtc : Option Instant := none

def notWithdrawable (message : String) : Raise :=
  .domainError "ObligationNotWithdrawableError" message

def withdrawAssessment (S : RentState) (now : Instant) (q : WithdrawAssessmentRequest) :
    Except Raise (ObligationAssessment × RentState) := do
  let a ← demand ((getAssessmentForCorrelation S q.correlationId).filter (·.classId = q.classId))
    (notWithdrawable
      ("no assessment " ++ quoted q.correlationId ++ " in class " ++ quoted q.classId))
  match getWithdrawalEvent S q.correlationId with
  | some e => return (e, S)
  | none =>
    let cycle ← demand (billCycle S a.billCycleId)
      (notWithdrawable (quoted q.correlationId ++ " is not bound to a scheduled period"))
    -- A period that begins at the cancelling instant itself is prevented, not begun.
    require (q.referenceTimeUtc.getD now ≤ cycle.cycleBoundaryAt)
      (notWithdrawable (quoted q.correlationId ++ ": its period began at " ++
        datetimeText cycle.cycleBoundaryAt))
    require (getSatisfactionEvents S q.correlationId = [])
      (notWithdrawable
        (quoted q.correlationId ++ " has a recorded satisfaction; its period is committed"))
    let e : ObligationAssessment :=
      { id := S.assessmentEvents.length + 1, seatId := a.seatId, classId := a.classId,
        internalRef := a.internalRef, correlationId := a.correlationId, eventType := .withdrawn,
        obligationType := a.obligationType, timestamp := now, billCycleId := a.billCycleId }
    return (e, addEvent S e)

end Commands

end TokenHub.Rent
