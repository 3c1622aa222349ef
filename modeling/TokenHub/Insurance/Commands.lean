import TokenHub.Ledger.Recovery
import TokenHub.Insurance.Renewal

set_option autoImplicit false

namespace TokenHub.Insurance

open Ledger Rent Lib.Checks Lib.Json

section Holdings

variable (S : InsuranceState) (seatId : ℕ) (classId : String)

/-- The insurance grants of a seat that no terminal event ends. -/
def activeGrants : List CoverageEvent :=
  S.coverageEvents.filter (fun e ↦ decide (e.targetSeatId = seatId ∧ e.classId = classId ∧
    e.eventType = .granted) && (getTerminalEvent S classId e.entitlementId).isNone)

def getActiveInsuranceGrant (policyUuid : String) : Option CoverageEvent :=
  (activeGrants S seatId classId).find? (·.policyUuid = policyUuid)

/-- Whether a version, or one that it was succeeded by, belongs to a tier group. -/
def reachesGroup (tierGroupId : String) : ℕ → List String → Option InsurancePolicy →
    Except Raise Bool
  | 0, _, _ => .error (.valueError "Cyclic insurance succession")
  | _ + 1, _, none => return false
  | left + 1, seen, some p =>
    if p.tierGroupId = some tierGroupId then return true
    else if p.policyUuid ∈ seen then .error (.valueError "Cyclic insurance succession")
    else reachesGroup tierGroupId left (p.policyUuid :: seen)
      (directSuccessor S classId p.policyUuid)

def hasActiveCoverageInGroup (tierGroupId : String) : Except Raise Bool :=
  (S.coverageEvents.filter (fun e ↦ e.targetSeatId = seatId ∧ e.classId = classId ∧
    e.eventType = .granted)).foldlM (fun found e ↦
      if found then return true
      else do
        let reaches ← reachesGroup S classId tierGroupId (S.policies.length + 2) []
          (getInsuranceDefinition S e.policyUuid classId)
        return reaches && (getTerminalEvent S classId e.entitlementId).isNone) false

end Holdings

structure CoverageResult where
  success : Bool := false
  correlationId : Option String := none
  entitlementId : Option ℕ := none
  transactionId : Option ℕ := none
  amount : ℤ := 0
  boundaryAt : Option Instant := none
  replayed : Bool := false
  errorCode : Option String := none
deriving DecidableEq, Repr

def CoverageResult.refused (correlationId : Option String) (code : String) : CoverageResult :=
  { correlationId := correlationId, errorCode := some code }

structure PurchaseRequest where
  classId : String
  seatId : ℕ
  policyUuid : String
  idempotencyKey : String

def PurchaseRequest.correlationId (q : PurchaseRequest) : String :=
  "insurance-purchase:" ++ q.idempotencyKey

section Purchase

variable (sha256 : String → String) (zone : CoverageZone) (env : Surroundings)
  (feat : FeatContext)

def PurchaseRequest.charge (q : PurchaseRequest) (premium : ℤ) : PremiumCharge :=
  { classId := q.classId, seatId := q.seatId, correlationId := q.correlationId,
    amount := premium, actorSeatId := q.seatId }

/-- Whether the seat holds coverage in the version's tier group, if it has one. -/
def holdsGroup (S : InsuranceState) (q : PurchaseRequest) (policy : InsurancePolicy) :
    Except Raise Bool :=
  match policy.tierGroupId with
  | none => return false
  | some g => if g = "" then return false else hasActiveCoverageInGroup S q.seatId q.classId g

def checkPurchase (S : InsuranceState) (q : PurchaseRequest) :
    Except Raise (Except String (InsurancePolicy × InsuranceRecurringTerms)) :=
  match getInsuranceDefinition S q.policyUuid q.classId with
  | none => return .error "POLICY_NOT_FOUND"
  | some policy =>
    if policy.availabilityState ≠ .inUse then
      return .error "INSURANCE_NOT_AVAILABLE_FOR_NEW_COVERAGE"
    else if policy.premium = 0 then return .error "INVALID_PREMIUM"
    else if (getActiveInsuranceGrant S q.seatId q.classId q.policyUuid).isSome then
      return .error "POLICY_ALREADY_HELD"
    else do
      let grouped ← holdsGroup S q policy
      if grouped then return .error "POLICY_ALREADY_HELD_IN_GROUP"
      else
        let affordable ← premiumIsAffordable env S.ledger (q.charge policy.premium)
        if affordable = false then return .error "INSUFFICIENT_FUNDS"
        else
          match policy.recurringTerms with
          | none => return .error "INVALID_RECURRING_TERMS"
          | some terms => return .ok (policy, terms)

/-- The writes of a purchase: the grant, its first period, its first premium and its payment. -/
def recordPurchase (S : InsuranceState) (q : PurchaseRequest) (policy : InsurancePolicy)
    (terms : InsuranceRecurringTerms) : Except Raise (CoverageResult × InsuranceState) := do
  let now := feat.canonicalNowUtc
  let (entitlementId, S₁) ← grantInsuranceEntitlement S
    { classId := q.classId, seatId := q.seatId, policyUuid := q.policyUuid,
      actorSeatId := q.seatId, correlationId := q.correlationId, grantedAt := now }
  let internalRef := premiumLineageRef entitlementId
  let (cycle, S₂) ← scheduleCoverageCycle sha256 zone.toClassZone S₁
    { classId := q.classId, internalRef := internalRef, cycleBoundaryAt := now,
      nextAssessmentAt :=
        coverageBoundary zone.toClassZone (zone.localDate now) terms.chargeFrequency 1,
      graceBoundaryAt := none, policyUuid := some q.policyUuid,
      idempotencyKey := successionCommandIdentity entitlementId 1, referenceTimeUtc := now }
  let (_, R) ← assessObligation S₂.toRentState now
    { seatId := q.seatId, classId := q.classId, internalRef := internalRef,
      correlationId := q.correlationId, obligationType := .insurancePremium,
      policyUuid := some q.policyUuid, billCycleId := some cycle.id }
  let (debit, S₃) ← settleInsurancePremium sha256 env feat { S₂ with toRentState := R }
    (q.charge policy.premium) ("insurance-premium:" ++ q.idempotencyKey ++ ":cycle1")
  return ({ success := true, correlationId := some q.correlationId,
            entitlementId := some entitlementId, transactionId := some debit.id,
            amount := policy.premium }, S₃)

def purchaseInsurance (S : InsuranceState) (q : PurchaseRequest) :
    Except Raise (CoverageResult × InsuranceState) := do
  require (q.policyUuid ≠ "") (.valueError "execute_purchase_insurance requires a policy_uuid")
  require (q.idempotencyKey ≠ "")
    (.valueError "execute_purchase_insurance requires an idempotency_key")
  let refuse (code : String) := CoverageResult.refused (some q.correlationId) code
  if q.classId = "" ∨ q.seatId = 0 then return (.refused none "INVALID_CONTEXT", S)
  else if S.ledger.seatClass q.seatId ≠ some q.classId then return (refuse "NO_SEAT", S)
  else
    match priorGrant S q.classId q.seatId q.correlationId with
    | some prior =>
      return ({ success := true, replayed := true, correlationId := some q.correlationId,
                entitlementId := some prior.entitlementId }, S)
    | none =>
      match ← checkPurchase env S q with
      | .error code => return (refuse code, S)
      | .ok (policy, terms) => recordPurchase sha256 zone env feat S q policy terms

end Purchase

section Payment

variable (sha256 : String → String) (env : Surroundings) (feat : FeatContext)

structure PremiumPaymentRequest where
  classId : String
  seatId : ℕ
  entitlementId : ℕ
  idempotencyKey : String
  correlationId : Option String := none

def PremiumPaymentRequest.ledgerKey (q : PremiumPaymentRequest) : String :=
  "insurance-premium-payment:" ++ q.idempotencyKey

def PremiumPaymentRequest.canonicalIntent (q : PremiumPaymentRequest) : Value :=
  .arr [.str "INSURANCE_PREMIUM", .num q.entitlementId, optText q.correlationId]

def earlierDue (best : Option ObligationState) (s : ObligationState) : Option ObligationState :=
  match best with
  | none => some s
  | some b =>
    if s.dueAt < b.dueAt ∨ (s.dueAt = b.dueAt ∧ s.correlationId < b.correlationId) then some s
    else some b

def getDefaultPaymentTarget (S : RentState) (classId internalRef : String) :
    Option ObligationState :=
  ((((S.assessmentEvents.filter (fun e ↦ e.classId = classId ∧ e.internalRef = internalRef ∧
    e.eventType = .assessment)).filterMap (fun e ↦ getObligationState S e.correlationId)).filter
      (·.status = .outstanding))).foldl earlierDue none

/-- The premium that a payment settles: the one it names, if it is of the lineage, or else the
oldest outstanding one. -/
def paymentTarget (S : RentState) (q : PremiumPaymentRequest) : Option ObligationState :=
  match q.correlationId with
  | none => getDefaultPaymentTarget S q.classId (premiumLineageRef q.entitlementId)
  | some c =>
    if (getAssessmentForCorrelation S c).any (fun a ↦
        decide (a.internalRef = premiumLineageRef q.entitlementId ∧ a.classId = q.classId)) then
      getObligationState S c
    else none

/-- The outcome of a payment that its own Ledger row already answers. -/
def replayedPremiumPayment (S : RentState) (q : PremiumPaymentRequest) (principal : Transaction) :
    Except Raise CoverageResult := do
  let unavailable := Raise.valueError "Accepted premium payment evidence is unavailable."
  let payment ← demand (getPaymentEventByLedger S principal.id) unavailable
  let a ← demand (getAssessmentForCorrelation S payment.correlationId) unavailable
  require (a.classId = q.classId ∧ a.seatId = q.seatId ∧
    a.internalRef = premiumLineageRef q.entitlementId) unavailable
  return { success := true, correlationId := some payment.correlationId,
           transactionId := some principal.id, amount := |principal.amountCents|,
           replayed := true }

/-- `execute_insurance_premium_payment`. -/
def payInsurancePremium (S : InsuranceState) (q : PremiumPaymentRequest) :
    Except Raise (CoverageResult × InsuranceState) := do
  require (q.idempotencyKey ≠ "")
    (.valueError "execute_insurance_premium_payment requires an idempotency_key")
  if S.ledger.seatClass q.seatId ≠ some q.classId then return (.refused none "NO_SEAT", S)
  else
    let prior ← replayReservedCharge sha256 S.ledger ⟨q.classId, feat.activeFeat, q.ledgerKey⟩
      q.seatId q.seatId .insurancePremium q.canonicalIntent
    match prior with
    | some principal =>
      let result ← replayedPremiumPayment S.toRentState q principal
      return (result, S)
    | none =>
      match (paymentTarget S.toRentState q).filter (·.seatId = q.seatId) with
      | none => return (.refused q.correlationId "NOTHING_TO_PAY", S)
      | some state =>
        if state.status ≠ .outstanding then
          return (.refused (some state.correlationId) "NOT_PAYABLE", S)
        else
          let charge : PremiumCharge :=
            { classId := q.classId, seatId := q.seatId, correlationId := state.correlationId,
              amount := state.remainingAmount, actorSeatId := q.seatId,
              canonicalIntent := q.canonicalIntent }
          let affordable ← premiumIsAffordable env S.ledger { charge with canonicalIntent := .null }
          if affordable = false then
            return (.refused (some state.correlationId) "INSUFFICIENT_FUNDS", S)
          else
            let (debit, S') ← settleInsurancePremium sha256 env feat S charge q.ledgerKey
            return ({ success := true, correlationId := some state.correlationId,
                      transactionId := some debit.id, amount := state.remainingAmount }, S')

end Payment

section Ending

variable (env : Surroundings) (now : Instant)

/-- The lineages that ever billed a seat for a policy version, in creation order. -/
def premiumLineages (S : RentState) (seatId : ℕ) (classId policyUuid : String) : List String :=
  (((S.assessmentEvents.filter (fun e ↦ e.seatId = seatId ∧ e.classId = classId ∧
    e.obligationType = .insurancePremium ∧ e.policyUuid = some policyUuid)).insertionSort
      (fun a b ↦ a.timestamp ≤ b.timestamp)).map (·.internalRef)).eraseDups

/-- `execute_cancel_insurance`: renewal stops at the end of the last committed period. -/
def cancelInsurance (S : InsuranceState) (classId : String) (seatId : ℕ) (policyUuid : String) :
    Except Raise (CoverageResult × InsuranceState) :=
  let activeRef := (getActiveInsuranceGrant S seatId classId policyUuid).map
    (fun g ↦ premiumLineageRef g.entitlementId)
  let latest := activeRef.bind (getLatestBillCycle S.toRentState)
  match activeRef, latest.bind (·.nextAssessmentAt) with
  | some ref, some _ => do
    let (terminal, S') ← terminateBillCycle S now { classId := classId, internalRef := ref }
    return ({ success := true, boundaryAt := some terminal.cycleBoundaryAt }, S')
  | _, _ =>
    -- Renewal is already stopped, or the coverage is over.
    let refs := match activeRef, latest with
      | some ref, some _ => [ref]
      | _, _ => premiumLineages S.toRentState seatId classId policyUuid
    match (refs.filterMap (getLatestBillCycle S.toRentState)).getLast? with
    | none => return (.refused none "COVERAGE_NOT_FOUND", S)
    | some seen =>
      return ({ success := true, replayed := true, boundaryAt := some seen.cycleBoundaryAt }, S)

/-- One terminal lineage of `run_insurance_expiry_job`: the coverage expires at the instant that
its lineage ended at. -/
def expireEndedCoverage (S : InsuranceState) (cycle : BillCycle) (entitlementId : ℕ) :
    Except Raise InsuranceState :=
  if cycle ∈ S.billCycles ∧ cycle.nextAssessmentAt = none ∧ cycle.cycleBoundaryAt ≤ now ∧
      cycle.internalRef = premiumLineageRef entitlementId then
    match getInsuranceGrant S cycle.classId entitlementId,
        getTerminalEvent S cycle.classId entitlementId with
    | some grant, none => do
      let actorSeatId ← env.teacherSeat cycle.classId
      expireCoverage S grant actorSeatId
        ("insurance-expiry:" ++ numberText entitlementId ++ ":" ++ isoFormat cycle.cycleBoundaryAt)
        cycle.cycleBoundaryAt
    | _, _ => return S
  else return S

end Ending

section Policies

/-- `create_insurance_definition`: a new version under a uuid of its own. -/
def createInsuranceDefinition (S : InsuranceState) (policy : InsurancePolicy) :
    Except Raise InsuranceState := do
  require (∀ p ∈ S.policies, p.policyUuid ≠ policy.policyUuid)
    (.integrityError "insurance_policies_pkey")
  let policies := S.policies ++ [policy]
  return { S with policies := policies, premiums := premiumColumn policies }

/-- `set_availability`: nothing but the availability of a version changes. -/
def setAvailability (S : InsuranceState) (policyUuid classId : String)
    (availabilityState : AvailabilityState) : Except Raise InsuranceState := do
  require (getInsuranceDefinition S policyUuid classId ≠ none)
    (.domainError "InsuranceDefinitionNotFound" "not found in the class")
  let policies := S.policies.map (fun p ↦
    if p.policyUuid = policyUuid ∧ p.classId = classId then
      { p with availabilityState := availabilityState }
    else p)
  return { S with policies := policies, premiums := premiumColumn policies }

end Policies

end TokenHub.Insurance
