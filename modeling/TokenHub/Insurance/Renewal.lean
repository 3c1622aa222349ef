import TokenHub.Insurance.Premiums

set_option autoImplicit false

namespace TokenHub.Insurance

open Ledger Rent Lib.Checks

section Nonpayment

/-- `_lineage_premiums`: the premium assessments of a lineage, oldest period first. -/
def lineagePremiums (S : RentState) (classId internalRef : String) : List ObligationAssessment :=
  (S.billCycles.insertionSort (fun a b ↦ a.cycleNumber ≤ b.cycleNumber)).flatMap (fun c ↦
    S.assessmentEvents.filter (fun e ↦ e.billCycleId = some c.id ∧ e.classId = classId ∧
      e.internalRef = internalRef ∧ e.eventType = .assessment ∧
      e.obligationType = .insurancePremium))

variable (zone : CoverageZone) (S : RentState) (cancelAfterDays : ℤ) (now : Instant)

/-- The loop of `find_nonpayment_deadline` over the premiums of a lineage. -/
def firstLapse : List ObligationAssessment → Option Instant
  | [] => none
  | a :: as =>
    let dueAt := resolveAssessmentDueAt S a
    if now < dueAt then none
    else
      let deadline := zone.shiftDays dueAt cancelAfterDays
      if getObligationStatusAsOf S deadline a.correlationId = some .outstanding then
        if deadline ≤ now then some deadline else none
      else firstLapse as

def findNonpaymentDeadline (classId : String) (entitlementId : ℕ) : Option Instant :=
  firstLapse zone S cancelAfterDays now
    (lineagePremiums S classId (premiumLineageRef entitlementId))

end Nonpayment

structure RenewalSubject where
  classId : String
  entitlementId : ℕ
  grant : CoverageEvent
  anchor : ℤ

inductive RenewalOutcome
  | skipped (reason : String)
  | notDue
  | terminatedForNonpayment (deadline : Instant)
  | stopped (boundary : Instant)
  | continuedAs (boundary : Instant) (entitlementId : ℕ) (autopaid : Bool)
  | renewed (cycleNumber : ℕ) (autopaid : Bool)
deriving DecidableEq, Repr

/-- The checks before the loop of `renew_insurance_coverage`, or why the run is skipped. -/
def renewalSubject (zone : ClassZone) (S : InsuranceState) (classId : String)
    (entitlementId : ℕ) : Except String RenewalSubject := do
  let grant ← demand (getInsuranceGrant S classId entitlementId) "NOT_GRANTED"
  require ((getTerminalEvent S classId entitlementId) = none) "TERMINATED"
  let anchor ← demand (getCadenceAnchor S zone classId entitlementId) "NO_LINEAGE"
  require (S.ledger.seatClass grant.targetSeatId = some classId) "NO_SEAT"
  return ⟨classId, entitlementId, grant, anchor⟩

section Renewal

variable (sha256 : String → String) (zone : CoverageZone) (env : Surroundings)
  (feat : FeatContext)

/-- `_attempt_autopay`: pays a freshly assessed premium in full, or leaves it outstanding. -/
def attemptAutopay (S : InsuranceState) (classId : String) (seatId entitlementId : ℕ)
    (cycleNumber : ℕ) (correlationId : String) : Except Raise (Bool × InsuranceState) :=
  match getObligationState S.toRentState correlationId with
  | none => return (false, S)
  | some state =>
    if state.status ≠ .outstanding then return (decide (state.status = .satisfied), S)
    else if state.remainingAmount ≤ 0 then return (true, S)
    else do
      let actorSeatId ← env.teacherSeat classId
      let charge : PremiumCharge :=
        { classId := classId, seatId := seatId, correlationId := correlationId,
          amount := state.remainingAmount, mechanism := .system, actorSeatId := actorSeatId }
      let affordable ← premiumIsAffordable env S.ledger charge
      if affordable = false then return (false, S)
      else
        let (_, S') ← settleInsurancePremium sha256 env feat S charge
          (autopayKey entitlementId cycleNumber)
        return (true, S')

structure CycleTerms where
  classId : String
  seatId : ℕ
  entitlementId : ℕ
  cycleNumber : ℕ
  policyUuid : Option String
  startAt : Instant
  endAt : Instant

/-- One period: its cycle, its premium, and the automatic payment of it. -/
def openPeriod (S : InsuranceState) (t : CycleTerms) : Except Raise (Bool × InsuranceState) := do
  let internalRef := premiumLineageRef t.entitlementId
  let (cycle, S₁) ← scheduleCoverageCycle sha256 zone.toClassZone S
    { classId := t.classId, internalRef := internalRef, cycleBoundaryAt := t.startAt,
      nextAssessmentAt := t.endAt, graceBoundaryAt := none, policyUuid := t.policyUuid,
      idempotencyKey := successionCommandIdentity t.entitlementId t.cycleNumber,
      referenceTimeUtc := feat.canonicalNowUtc }
  let correlationId := premiumCorrelationId t.entitlementId cycle.cycleNumber
  let (_, R) ← assessObligation S₁.toRentState feat.canonicalNowUtc
    { seatId := t.seatId, classId := t.classId, internalRef := internalRef,
      correlationId := correlationId, obligationType := .insurancePremium,
      policyUuid := cycle.policyUuid, billCycleId := some cycle.id }
  attemptAutopay sha256 env feat { S₁ with toRentState := R } t.classId t.seatId t.entitlementId
    cycle.cycleNumber correlationId

def stopRenewal (S : InsuranceState) (classId : String) (entitlementId : ℕ) :
    Except Raise (Instant × InsuranceState) := do
  let (terminal, S') ← terminateBillCycle S feat.canonicalNowUtc
    { classId := classId, internalRef := premiumLineageRef entitlementId,
      referenceTimeUtc := some feat.canonicalNowUtc }
  return (terminal.cycleBoundaryAt, S')

/-- `_terminate_for_nonpayment`: the coverage expires at the deadline and so ends its lineage. -/
def terminateForNonpayment (S : InsuranceState) (s : RenewalSubject) (deadline : Instant) :
    Except Raise InsuranceState := do
  let actorSeatId ← env.teacherSeat s.classId
  let S₁ ← expireCoverage S s.grant actorSeatId
    ("insurance-nonpayment:" ++ numberText s.entitlementId) deadline
  let (_, S₂) ← terminateBillCycle S₁ feat.canonicalNowUtc
    { classId := s.classId, internalRef := premiumLineageRef s.entitlementId,
      terminationAt := some deadline, referenceTimeUtc := some deadline }
  return S₂

def continueUnderSuccessor (S : InsuranceState) (s : RenewalSubject) (successor : InsurancePolicy)
    (boundary : Instant) : Except Raise ((ℕ × Bool) × InsuranceState) := do
  let actorSeatId ← env.teacherSeat s.classId
  let (newId, S₁) ← grantInsuranceEntitlement S
    { classId := s.classId, seatId := s.grant.targetSeatId, policyUuid := successor.policyUuid,
      actorSeatId := actorSeatId, correlationId := continuationCorrelationId s.entitlementId,
      grantedAt := boundary, continuesEntitlementId := some s.entitlementId }
  let terms ← getInsuranceRecurringTerms S₁ (some successor.policyUuid) s.classId
  let endAt := coverageBoundary zone.toClassZone (zone.localDate boundary) terms.chargeFrequency 1
  let (paid, S₂) ← openPeriod sha256 zone env feat S₁
    { classId := s.classId, seatId := s.grant.targetSeatId, entitlementId := newId,
      cycleNumber := 1, policyUuid := some successor.policyUuid, startAt := boundary,
      endAt := endAt }
  return ((newId, paid), S₂)

def renewalPass (S : InsuranceState) (s : RenewalSubject) :
    Except Raise (RenewalOutcome × InsuranceState) := do
  let now := feat.canonicalNowUtc
  let ref := premiumLineageRef s.entitlementId
  match getCoverageEligibility S zone.toClassZone s.classId now ref with
  | .empty => return (.skipped "NO_LINEAGE", S)
  | .terminal _ => return (.skipped "TERMINATED", S)
  | .notDue latest => do
    let terms ← getInsuranceRecurringTerms S latest.policyUuid s.classId
    match lapsed terms with
    | some deadline =>
      let S' ← terminateForNonpayment env feat S s deadline
      return (.terminatedForNonpayment deadline, S')
    | none => return (.notDue, S)
  | .due latest _ => do
    let terms ← getInsuranceRecurringTerms S latest.policyUuid s.classId
    -- Coverage goes on until the deadline, so it is looked at before every succession.
    match lapsed terms with
    | some deadline =>
      let S' ← terminateForNonpayment env feat S s deadline
      return (.terminatedForNonpayment deadline, S')
    | none =>
      match (latest.policyUuid.bind (getLatestSuccessor S · s.classId)).filter
          (·.availabilityState = .inUse) with
      | some successor =>
        let (boundary, S₁) ← stopRenewal feat S s.classId s.entitlementId
        let ((newId, paid), S₂) ←
          continueUnderSuccessor sha256 zone env feat S₁ s successor boundary
        return (.continuedAs boundary newId paid, S₂)
      | none =>
        if (latest.policyUuid.bind (getInsuranceDefinition S · s.classId)).any
            (·.availabilityState = .inUse) then
          let number := latest.cycleNumber + 1
          let (paid, S') ← openPeriod sha256 zone env feat S
            { classId := s.classId, seatId := s.grant.targetSeatId,
              entitlementId := s.entitlementId, cycleNumber := number,
              policyUuid := latest.policyUuid,
              startAt := coverageBoundary zone.toClassZone s.anchor terms.chargeFrequency
                (number - 1),
              endAt := coverageBoundary zone.toClassZone s.anchor terms.chargeFrequency number }
          return (.renewed number paid, S')
        else
          let (boundary, S') ← stopRenewal feat S s.classId s.entitlementId
          return (.stopped boundary, S')
where
  /-- The nonpayment deadline that a cancelling version has reached. -/
  lapsed (terms : InsuranceRecurringTerms) : Option Instant :=
    if terms.nonpaymentMode = some .cancelAfterXDays then
      findNonpaymentDeadline zone S.toRentState (terms.cancelAfterDays.getD 0)
        feat.canonicalNowUtc s.classId s.entitlementId
    else none

/-- The passes of a run, until one of them ends it. A continuing entitlement is caught up in the
same run. -/
def renewalLoop : ℕ → InsuranceState → RenewalSubject →
    Except Raise (List RenewalOutcome × InsuranceState)
  | 0, _, _ => .error (.runtimeError "the renewal loop has no pass left")
  | left + 1, S, s => do
    let (outcome, S') ← renewalPass sha256 zone env feat S s
    match outcome with
    | .renewed _ _ =>
      let (outcomes, S'') ← renewalLoop left S' s
      return (outcome :: outcomes, S'')
    | .continuedAs _ newId _ =>
      match renewalSubject zone.toClassZone S' s.classId newId with
      | .error reason => return ([outcome, .skipped reason], S')
      | .ok s' =>
        let (outcomes, S'') ← renewalLoop left S' s'
        return (outcome :: outcomes, S'')
    | _ => return ([outcome], S')

def renewInsuranceCoverage (passes : ℕ) (S : InsuranceState) (classId : String)
    (entitlementId : ℕ) : Except Raise (List RenewalOutcome × InsuranceState) :=
  match renewalSubject zone.toClassZone S classId entitlementId with
  | .error reason => return ([.skipped reason], S)
  | .ok s => renewalLoop sha256 zone env feat passes S s

end Renewal

end TokenHub.Insurance
