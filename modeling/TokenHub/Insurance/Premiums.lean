import TokenHub.Insurance.Coverage

set_option autoImplicit false

namespace TokenHub.Insurance

open Ledger Rent Lib.Checks Lib.Json

section BillCycles

variable (sha256 : String → String) (zone : ClassZone)

/-- `schedule_next_bill_cycle` of a premium lineage. -/
def scheduleCoverageCycle (S : InsuranceState) (q : ScheduleNextBillCycleRequest) :
    Except Raise (BillCycle × InsuranceState) := do
  require (q.classId ≠ "" ∧ q.internalRef ≠ "")
    (.valueError "schedule_next_bill_cycle requires class_id and internal_ref.")
  require (¬ isBlank q.idempotencyKey)
    (.valueError
      "schedule_next_bill_cycle requires a non-empty idempotency_key (command identity).")
  require (q.idempotencyKey.length ≤ 255)
    (.valueError "schedule_next_bill_cycle idempotency_key exceeds 255 characters.")
  match S.successions.find? (fun r ↦
      r.classId = q.classId ∧ r.idempotencyKey = q.idempotencyKey) with
  | some r =>
    require (r.replayFingerprint = successionFingerprint sha256 q)
      (successionReplayMismatch q.idempotencyKey)
    let cycle ← demand (billCycle S.toRentState (some r.billCycleId))
      (.runtimeError "no such bill cycle")
    return (cycle, S)
  | none =>
    require (q.cycleBoundaryAt < q.nextAssessmentAt)
      (nextNotAfterBoundary q.nextAssessmentAt q.cycleBoundaryAt)
    let number ← nextCycleNumber q.internalRef q.referenceTimeUtc
      (getCoverageEligibility S zone q.classId q.referenceTimeUtc q.internalRef)
    require (∀ c ∈ S.billCycles, ¬ (c.internalRef = q.internalRef ∧ c.cycleNumber = number))
      (successionConflict q.internalRef number q.idempotencyKey)
    let cycle := successor S.toRentState q number
    let reservation : ObligationCommandReservation :=
      { classId := q.classId, idempotencyKey := q.idempotencyKey,
        replayFingerprint := successionFingerprint sha256 q, billCycleId := cycle.id }
    return (cycle, { S with billCycles := S.billCycles ++ [cycle],
                            successions := S.successions ++ [reservation] })

def isCycleCommitted (S : RentState) (cycle : BillCycle) : Bool :=
  S.assessmentEvents.any (fun e ↦ decide (e.billCycleId = some cycle.id ∧
    e.eventType = .assessment) && !(getSatisfactionEvents S e.correlationId).isEmpty)

/-- `get_stop_renewal_instant`: the end of the last committed period. -/
def getStopRenewalInstant (S : RentState) (classId internalRef : String) (now : Instant) :
    Except Raise (Option Instant) :=
  match (getLatestBillCycle S internalRef).filter (·.classId = classId) with
  | none => return none
  | some latest =>
    match latest.nextAssessmentAt with
    | none => return none
    | some next => do
      match ← getCurrentBillCycle S classId internalRef now with
      | none => return some next
      | some current =>
        if latest.id = current.id ∨ isCycleCommitted S latest = true then return some next
        else return current.nextAssessmentAt

structure TerminateBillCycleRequest where
  classId : String
  internalRef : String
  terminationAt : Option Instant := none
  referenceTimeUtc : Option Instant := none

def withdrawUntouched (now : Instant) (reference : Option Instant) (classId : String) :
    RentState → List ObligationAssessment → Except Raise RentState
  | S, [] => return S
  | S, a :: as =>
    if getSatisfactionEvents S a.correlationId ≠ [] then
      withdrawUntouched now reference classId S as
    else do
      let (_, S') ← withdrawAssessment S now
        { classId := classId, correlationId := a.correlationId, referenceTimeUtc := reference }
      withdrawUntouched now reference classId S' as

/-- The assessments of the scheduled periods that would begin at or after an instant. -/
def scheduledAfter (S : RentState) (classId internalRef : String) (instant : Instant) :
    List ObligationAssessment :=
  (S.billCycles.filter (fun c ↦ c.classId = classId ∧ c.internalRef = internalRef ∧
    c.nextAssessmentAt.isSome ∧ instant ≤ c.cycleBoundaryAt)).flatMap (fun c ↦
      S.assessmentEvents.filter (fun e ↦ e.billCycleId = some c.id ∧ e.eventType = .assessment))

def terminalCycle (S : RentState) (latest : BillCycle) (instant : Instant) : BillCycle where
  id := S.billCycles.length + 1
  classId := latest.classId
  internalRef := latest.internalRef
  cycleNumber := latest.cycleNumber + 1
  policyUuid := latest.policyUuid
  cycleBoundaryAt := instant
  nextAssessmentAt := none
  graceBoundaryAt := none

/-- `terminate_bill_cycle`. A terminal lineage keeps its terminal row. -/
def terminateBillCycle (S : InsuranceState) (now : Instant) (q : TerminateBillCycleRequest) :
    Except Raise (BillCycle × InsuranceState) := do
  let latest ← demand (getLatestBillCycle S.toRentState q.internalRef)
    (nothingToTerminate q.internalRef)
  require (latest.classId = q.classId) (scopeMismatch q.internalRef latest.classId q.classId)
  if latest.nextAssessmentAt = none then return (latest, S)
  else
    let stop ← getStopRenewalInstant S.toRentState q.classId q.internalRef
      (q.referenceTimeUtc.getD now)
    let instant ← demand (q.terminationAt.or stop)
      (.runtimeError "an open lineage has an instant to stop at")
    let R ← withdrawUntouched now q.referenceTimeUtc q.classId S.toRentState
      (scheduledAfter S.toRentState q.classId q.internalRef instant)
    let terminal := terminalCycle R latest instant
    return (terminal, { S with toRentState := { R with billCycles := R.billCycles ++ [terminal] } })

end BillCycles

structure PremiumCharge where
  classId : String
  seatId : ℕ
  correlationId : String
  amount : ℤ
  mechanism : LedgerMechanism := .self
  actorSeatId : ℕ
  canonicalIntent : Value := .null

def PremiumCharge.plan (q : PremiumCharge) (authoritySeatId : ℕ) : IntendedLedgerPlan where
  seatId := q.seatId
  classId := q.classId
  debitAmount := q.amount
  transactionType := "insurance_premium"
  actorSeatId := q.actorSeatId
  targetSeatId := authoritySeatId
  mechanism := q.mechanism.value
  canonicalIntent := q.canonicalIntent

section Payment

variable (sha256 : String → String) (env : Surroundings)

def resolvePremiumFunding (L : LedgerState) (q : PremiumCharge) :
    Except Raise ResolvedLedgerPlan := do
  let authority ← env.teacherSeat q.classId
  let intended ← buildIntendedLedgerPlan (q.plan authority)
  resolveIntendedLedgerPlan L intended (env.bankingDirective q.classId)

def premiumIsAffordable (L : LedgerState) (q : PremiumCharge) : Except Raise Bool := do
  let resolved ← resolvePremiumFunding env L q
  return decide (0 ≤ resolved.checkingAfter)

/-- `settle_insurance_premium`: the debit and the `PAYMENT` that names it. A charge that was
accepted before is not screened again. -/
def settleInsurancePremium (feat : FeatContext) (S : InsuranceState) (q : PremiumCharge)
    (ledgerIdempotencyKey : String) : Except Raise (Transaction × InsuranceState) := do
  require (0 < q.amount) (.valueError "settle_insurance_premium requires a positive amount")
  let resolved ← resolvePremiumFunding env S.ledger q
  require ((S.ledger.reservations.find?
      (·.identity = ⟨q.classId, feat.activeFeat, ledgerIdempotencyKey⟩)).isSome ∨
    0 ≤ resolved.checkingAfter) (.domainError "PremiumNotAffordable" q.correlationId)
  let (applied, L) ← applyResolvedLedgerPlan sha256 feat S.ledger resolved ledgerIdempotencyKey
  let debit ← demand applied.principal (.runtimeError "the plan has no principal")
  let (_, R) ← satisfyObligation { S.toRentState with ledger := L } feat.canonicalNowUtc
    { correlationId := q.correlationId, classId := q.classId, seatId := q.seatId,
      method := .payment, ledgerTransactionId := some debit.id }
  return (debit, { S with toRentState := R })

end Payment

def premiumCorrelationId (entitlementId cycleNumber : ℕ) : String :=
  "insurance-premium:" ++ numberText entitlementId ++ ":" ++ numberText cycleNumber

def successionCommandIdentity (entitlementId cycleNumber : ℕ) : String :=
  "insurance-premium:" ++ numberText entitlementId ++ ":cycle:" ++ numberText cycleNumber

def continuationCorrelationId (entitlementId : ℕ) : String :=
  "insurance-continuation:" ++ numberText entitlementId

def autopayKey (entitlementId cycleNumber : ℕ) : String :=
  premiumCorrelationId entitlementId cycleNumber ++ ":autopay"

section Entitlements

def freshEntitlementId (S : InsuranceState) : ℕ :=
  (S.coverageEvents.map (·.entitlementId)).foldr max 0 + 1

structure GrantRequest where
  classId : String
  seatId : ℕ
  policyUuid : String
  actorSeatId : ℕ
  correlationId : String
  grantedAt : Instant
  continuesEntitlementId : Option ℕ := none

def priorGrant (S : InsuranceState) (classId : String) (seatId : ℕ) (correlationId : String) :
    Option CoverageEvent :=
  S.coverageEvents.find? (fun e ↦ e.classId = classId ∧ e.targetSeatId = seatId ∧
    e.eventType = .granted ∧ e.correlationId = correlationId)

def grantInsuranceEntitlement (S : InsuranceState) (q : GrantRequest) :
    Except Raise (ℕ × InsuranceState) := do
  require (q.policyUuid ≠ "")
    (.valueError "grant_insurance_entitlement requires a policy_uuid")
  match priorGrant S q.classId q.seatId q.correlationId with
  | some e => return (e.entitlementId, S)
  | none =>
    let event : CoverageEvent :=
      { classId := q.classId, targetSeatId := q.seatId, actorSeatId := q.actorSeatId,
        entitlementId := freshEntitlementId S, acquisitionType := .purchase,
        eventType := .granted, correlationId := q.correlationId, policyUuid := q.policyUuid,
        continuesEntitlementId := q.continuesEntitlementId, timestamp := q.grantedAt }
    return (event.entitlementId, { S with coverageEvents := S.coverageEvents ++ [event] })

def expireCoverage (S : InsuranceState) (grant : CoverageEvent) (actorSeatId : ℕ)
    (correlationId : String) (effectiveAt : Instant) : Except Raise InsuranceState :=
  match getTerminalEvent S grant.classId grant.entitlementId with
  | some e => do
    require (e.eventType = .expired) (.valueError "Entitlement already has terminal event")
    return S
  | none => return { S with coverageEvents := S.coverageEvents ++ [{ grant with
      actorSeatId := actorSeatId, eventType := .expired, correlationId := correlationId,
      continuesEntitlementId := none, timestamp := effectiveAt }] }

end Entitlements

end TokenHub.Insurance
